import SqlClause.Clause.Basic

/-!
# Trees of clauses

A `Node` is a clause whose parts are nodes. Whatever is computed for a whole tree is computed by
`Node.fold`: at each node a rule combines the clause, whose parts have been replaced by the results
for them, with the node itself.

* `Node.fold_mk`: the fold of a node is the rule applied to the folds of its parts;
* `Node.induction`: a property that passes from the parts to the node holds of every node.
-/

namespace SqlClause

/-- A tree of clauses. -/
inductive Node where
  | mk (clause : Clause Node)

namespace Node

def clause : Node → Clause Node
  | mk c => c

/-- The name of the node's kind. -/
def tag (n : Node) : String := n.clause.tag

/-- The nodes of which the node is made, in order. -/
def children (n : Node) : List Node := n.clause.parts

/-! ## 1. Folding a tree -/

section Fold

variable {β : Type}

mutual

/-- Combines the results for the parts by the rule `f`, from the leaves to the root. -/
def fold (f : Node → Clause β → β) : Node → β
  | mk c => f (mk c) (foldClause f c)

def foldClause (f : Node → Clause β → β) : Clause Node → Clause β
  | .column c => .column c
  | .bind p => .bind p
  | .text sql => .text sql
  | .keyword k => .keyword k
  | .binary left op right type => .binary (fold f left) op (fold f right) type
  | .unary element op modifier => .unary (fold f element) op modifier
  | .list clauses op => .list (foldList f clauses) op
  | .grouping element => .grouping (fold f element)
  | .function name arguments type => .function name (foldList f arguments) type
  | .cast element type => .cast (fold f element) type
  | .typeCoerce element type => .typeCoerce (fold f element) type
  | .label name element => .label name (fold f element)
  | .select ⟨columns, criterion, groupBy, orderBy, limit, offset, distinct, distinctOn, claimed,
      preColumns, postCriteria, postBody⟩ =>
      .select ⟨foldList f columns, foldOption f criterion, foldList f groupBy, foldList f orderBy,
        limit, offset, distinct, foldList f distinctOn, claimed, foldList f preColumns,
        foldList f postCriteria, foldList f postBody⟩
  | .hint element => .hint (fold f element)
  | .orderedAggregate target type orderBy =>
      .orderedAggregate (fold f target) type (fold f orderBy)
  | .distinctOn terms => .distinctOn (foldList f terms)
  | .custom tag attributes => .custom tag (foldAttributes f attributes)

def foldList (f : Node → Clause β → β) : List Node → List β
  | [] => []
  | n :: ns => fold f n :: foldList f ns

def foldOption (f : Node → Clause β → β) : Option Node → Option β
  | none => none
  | some n => some (fold f n)

def foldAttributes (f : Node → Clause β → β) :
    List (String × Attribute Node) → List (String × Attribute β)
  | [] => []
  | (name, a) :: rest => (name, foldAttribute f a) :: foldAttributes f rest

def foldAttribute (f : Node → Clause β → β) : Attribute Node → Attribute β
  | .element part => .element (fold f part)
  | .optionalElement part => .optionalElement (foldOption f part)
  | .elementList parts => .elementList (foldList f parts)
  | .type t => .type t
  | .string s => .string s
  | .boolean b => .boolean b
  | .integer n => .integer n
  | .stringMap m => .stringMap m
  | .value v => .value v

end

theorem foldList_eq (f : Node → Clause β → β) : ∀ ns, foldList f ns = ns.map (fold f)
  | [] => rfl
  | _ :: ns => congrArg _ (foldList_eq f ns)

theorem foldOption_eq (f : Node → Clause β → β) (n : Option Node) :
    foldOption f n = n.map (fold f) := by
  cases n <;> rfl

theorem foldAttribute_eq (f : Node → Clause β → β) (a : Attribute Node) :
    foldAttribute f a = a.map (fold f) := by
  cases a <;> simp [foldAttribute, Attribute.map, foldList_eq, foldOption_eq]

theorem foldAttributes_eq (f : Node → Clause β → β) :
    ∀ as, foldAttributes f as = as.map fun a => (a.1, a.2.map (fold f))
  | [] => rfl
  | (name, a) :: rest => by
      simp only [foldAttributes, foldAttribute_eq, foldAttributes_eq f rest, List.map_cons]

theorem foldClause_eq (f : Node → Clause β → β) (c : Clause Node) :
    foldClause f c = c.map (fold f) := by
  cases c with
  | select s => cases s; simp [foldClause, Clause.map, Select.map, foldList_eq, foldOption_eq]
  | _ => simp [foldClause, Clause.map, foldList_eq, foldAttributes_eq]

/-- **The fold of a node is the rule applied to the folds of its parts.** -/
theorem fold_mk (f : Node → Clause β → β) (c : Clause Node) :
    fold f (mk c) = f (mk c) (c.map (fold f)) := by
  rw [fold, foldClause_eq]

end Fold

/-! ## 2. Induction on the parts -/

section Induction

variable {P : Node → Prop}

mutual

/-- **What passes from the parts of every node to the node holds of every node.** -/
theorem induction (h : ∀ c : Clause Node, (∀ n ∈ c.parts, P n) → P (mk c)) : ∀ n, P n
  | mk c => h c (induction_clause h c)

theorem induction_clause (h : ∀ c : Clause Node, (∀ n ∈ c.parts, P n) → P (mk c)) :
    ∀ c : Clause Node, ∀ n ∈ c.parts, P n
  | .column _, _, hn => by cases hn
  | .bind _, _, hn => by cases hn
  | .text _, _, hn => by cases hn
  | .keyword _, _, hn => by cases hn
  | .binary left _ right _, n, hn => by
      have hl := induction h left
      have hr := induction h right
      rcases List.mem_cons.mp hn with rfl | hn
      · exact hl
      · rw [List.mem_singleton.mp hn]
        exact hr
  | .unary element _ _, n, hn => by
      have he := induction h element
      rw [List.mem_singleton.mp hn]
      exact he
  | .list clauses _, n, hn => by
      have hs := induction_list h clauses
      exact hs n (by simpa [Clause.parts, Clause.attributes, Attribute.parts] using hn)
  | .grouping element, n, hn => by
      have he := induction h element
      rw [List.mem_singleton.mp hn]
      exact he
  | .function _ arguments _, n, hn => by
      have hs := induction_list h arguments
      exact hs n (by simpa [Clause.parts, Clause.attributes, Attribute.parts] using hn)
  | .cast element _, n, hn => by
      have he := induction h element
      rw [List.mem_singleton.mp hn]
      exact he
  | .typeCoerce element _, n, hn => by
      have he := induction h element
      rw [List.mem_singleton.mp hn]
      exact he
  | .label _ element, n, hn => by
      have he := induction h element
      rw [List.mem_singleton.mp hn]
      exact he
  | .select ⟨columns, criterion, groupBy, orderBy, _, _, _, distinctOn, _, preColumns, postCriteria,
      postBody⟩, n, hn => by
      have h₁ := induction_list h columns
      have h₂ := induction_option h criterion
      have h₃ := induction_list h groupBy
      have h₄ := induction_list h orderBy
      have h₅ := induction_list h distinctOn
      have h₆ := induction_list h preColumns
      have h₇ := induction_list h postCriteria
      have h₈ := induction_list h postBody
      simp only [Clause.parts, Clause.attributes, Attribute.parts, List.flatMap_cons,
        List.flatMap_nil, List.mem_append, List.append_nil, List.nil_append,
        Option.mem_toList] at hn
      rcases hn with hn | hn | hn | hn | hn | hn | hn | hn
      · exact h₁ n hn
      · exact h₂ n hn
      · exact h₃ n hn
      · exact h₄ n hn
      · exact h₅ n hn
      · exact h₆ n hn
      · exact h₇ n hn
      · exact h₈ n hn
  | .hint element, n, hn => by
      have he := induction h element
      rw [List.mem_singleton.mp hn]
      exact he
  | .orderedAggregate target _ orderBy, n, hn => by
      have ht := induction h target
      have ho := induction h orderBy
      rcases List.mem_cons.mp hn with rfl | hn
      · exact ht
      · rw [List.mem_singleton.mp hn]
        exact ho
  | .distinctOn terms, n, hn => by
      have hs := induction_list h terms
      exact hs n (by simpa [Clause.parts, Clause.attributes, Attribute.parts] using hn)
  | .custom _ attributes, n, hn => by
      have ha := induction_attributes h attributes
      obtain ⟨a, hmem, hn⟩ := List.mem_flatMap.mp hn
      exact ha a hmem n hn

theorem induction_list (h : ∀ c : Clause Node, (∀ n ∈ c.parts, P n) → P (mk c)) :
    ∀ ns : List Node, ∀ n ∈ ns, P n
  | [], _, hn => by cases hn
  | m :: ns, n, hn => by
      have hm := induction h m
      have hs := induction_list h ns
      rcases List.mem_cons.mp hn with rfl | hn
      · exact hm
      · exact hs n hn

theorem induction_option (h : ∀ c : Clause Node, (∀ n ∈ c.parts, P n) → P (mk c)) :
    ∀ m : Option Node, ∀ n, m = some n → P n
  | none, _, hn => by cases hn
  | some m, n, hn => by
      have hm := induction h m
      cases hn
      exact hm

theorem induction_attributes (h : ∀ c : Clause Node, (∀ n ∈ c.parts, P n) → P (mk c)) :
    ∀ as : List (String × Attribute Node), ∀ a ∈ as, ∀ n ∈ a.2.parts, P n
  | [], _, ha => by cases ha
  | (_, b) :: rest, a, ha => by
      have hb := induction_attribute h b
      have hs := induction_attributes h rest
      rcases List.mem_cons.mp ha with rfl | ha
      · exact hb
      · exact hs a ha

theorem induction_attribute (h : ∀ c : Clause Node, (∀ n ∈ c.parts, P n) → P (mk c)) :
    ∀ a : Attribute Node, ∀ n ∈ a.parts, P n
  | .element part, n, hn => by
      have hp := induction h part
      rw [List.mem_singleton.mp hn]
      exact hp
  | .optionalElement part, n, hn => by
      have hp := induction_option h part
      exact hp n (Option.mem_toList.mp hn)
  | .elementList parts, n, hn => by
      have hp := induction_list h parts
      exact hp n hn
  | .type _, _, hn => by cases hn
  | .string _, _, hn => by cases hn
  | .boolean _, _, hn => by cases hn
  | .integer _, _, hn => by cases hn
  | .stringMap _, _, hn => by cases hn
  | .value _, _, hn => by cases hn

end

end Induction

end Node

end SqlClause
