import SqlClause.Proofs.Regrouping
import SqlClause.Proofs.Retyping
import SqlClause.Proofs.Sources

/-!
# Trees without their coercions

A coercion gives an expression another type, and nothing that is written down depends on types of
expressions. So a tree can do without its coercions, wherever they stand: what a statement selects
from is the same, operands get the same parentheses, and every node is rendered as before. Trees
that differ in coercions only are rendered alike, and so is what operators make of them.

* `Node.uncoerced`: a tree without its coercions;
* `Node.preorder_uncoerced`: all other nodes stay, in their order;
* `Node.mentions_uncoerced`, `Node.needsGrouping_uncoerced`: what coercions leave alone;
* `Node.render_uncoerced`: coercions are not rendered;
* **`Compiler.compile_uncoerced`**: coercions change no compiled text, in a tree or as operands.
-/

namespace SqlClause

/-! ## 1. Taking the coercions out -/

namespace Clause

variable {α β : Type}

def isCoercion : Clause α → Bool
  | typeCoerce .. => true
  | _ => false

/-- What stands for the clause without coercions: the element, if the clause is a coercion. -/
def uncoerce : Clause Node → Node
  | typeCoerce element _ => element
  | c => ⟨c⟩

theorem isCoercion_map (f : α → β) (c : Clause α) : (c.map f).isCoercion = c.isCoercion := by
  cases c <;> rfl

theorem eq_typeCoerce_of_isCoercion {c : Clause α} (h : c.isCoercion = true) :
    ∃ element type, c = typeCoerce element type := by
  cases c with
  | typeCoerce element type => exact ⟨element, type, rfl⟩
  | _ => cases h

theorem uncoerce_of_not_isCoercion {c : Clause Node} (h : c.isCoercion = false) :
    c.uncoerce = ⟨c⟩ := by
  cases c with
  | typeCoerce => cases h
  | _ => rfl

theorem mem_parts_of_outerParts {c : Clause α} {a : α} (h : a ∈ c.outerParts) : a ∈ c.parts := by
  cases c with
  | select => cases h
  | _ => exact h

end Clause

namespace Node

/-- The tree with what is under it in the place of every coercion. -/
def uncoerced : Node → Node := fold fun _ c => c.uncoerce

theorem uncoerced_typeCoerce (n : Node) (type : DataType) :
    (n.typeCoerce type).uncoerced = n.uncoerced := fold_mk ..

/-- A node that is no coercion stays, over its parts without their coercions. -/
theorem uncoerced_mk {c : Clause Node} (h : c.isCoercion = false) :
    (mk c).uncoerced = mk (c.map uncoerced) := by
  have hmapped : (c.map uncoerced).isCoercion = false := by
    rw [Clause.isCoercion_map, h]
  have hfold : (mk c).uncoerced = (c.map uncoerced).uncoerce := fold_mk ..
  rw [hfold, Clause.uncoerce_of_not_isCoercion hmapped]

/-- What holds of the element of every coercion without the coercion, and passes to every other node
from its parts, holds of every node. -/
theorem coercion_induction {P : Node → Prop} (hcoercion : ∀ n type, P n → P (n.typeCoerce type))
    (hmk : ∀ c : Clause Node, c.isCoercion = false → (∀ n ∈ c.parts, P n) → P (mk c)) :
    ∀ n, P n := by
  apply induction
  intro c ih
  cases hc : c.isCoercion with
  | true =>
      obtain ⟨element, type, rfl⟩ := Clause.eq_typeCoerce_of_isCoercion hc
      exact hcoercion element type (ih element (List.mem_singleton_self element))
  | false => exact hmk c hc ih

/-- **All nodes but the coercions stay**, in their order, and nothing else is in the tree. -/
theorem preorder_uncoerced : ∀ n : Node,
    n.uncoerced.preorder = (n.preorder.filter (!·.clause.isCoercion)).map uncoerced := by
  apply coercion_induction
  · intro n type ih
    have hpreorder : (n.typeCoerce type).preorder = n.typeCoerce type :: n.preorder := by
      rw [typeCoerce, preorder_mk]
      exact congrArg _ (List.append_nil _)
    rw [uncoerced_typeCoerce, hpreorder, ih]
    rfl
  · intro c hc ih
    have hkept : (!(mk c).clause.isCoercion) = true := by
      rw [clause, hc]
      rfl
    have hparts : c.parts.map (preorder ∘ uncoerced) = c.parts.map fun n =>
        (n.preorder.filter (!·.clause.isCoercion)).map uncoerced := List.map_congr_left ih
    rw [uncoerced_mk hc, preorder_mk, preorder_mk, List.filter_cons, if_pos hkept, List.map_cons,
      uncoerced_mk hc, Clause.parts_map, List.map_map, hparts, List.filter_flatten,
      List.map_flatten, List.map_map, List.map_map]
    rfl

/-! ## 2. What coercions leave alone -/

/-- A tree mentions the same relations without its coercions, as often and in the same order. -/
theorem mentions_uncoerced : ∀ n : Node, n.uncoerced.mentions = n.mentions := by
  apply coercion_induction
  · intro n type ih
    rw [uncoerced_typeCoerce, ih, typeCoerce, mentions_mk]
    exact (List.append_nil _).symm
  · intro c hc ih
    have hparts : ∀ n ∈ c.outerParts, n.uncoerced.mentions = n.mentions :=
      fun n hn => ih n (Clause.mem_parts_of_outerParts hn)
    rw [uncoerced_mk hc, mentions_mk, mentions_mk, Clause.columnRef?_map, Clause.outerParts_map,
      List.flatMap_map, List.flatMap_congr hparts]

/-- A statement selects from the same relations if its parts lose their coercions. -/
theorem sources_map_uncoerced (c : Clause Node) :
    (mk (c.map uncoerced)).sources = (mk c).sources := by
  cases c with
  | select s =>
      have hmentions : (s.map uncoerced).mentions = s.mentions := by
        rw [Select.mentions, Select.mentions, Select.map, Option.toList_map, ← List.map_append,
          List.flatMap_map]
        exact List.flatMap_congr fun n _ => n.mentions_uncoerced
      show (s.map uncoerced).relations = s.relations
      rw [Select.relations_eq_merge, Select.relations_eq_merge, hmentions]
  | _ => rfl

/-- An operand needs parentheses if it does without its coercions. -/
theorem needsGrouping_uncoerced (against : Option Operator) : ∀ n : Node,
    n.uncoerced.needsGrouping against = n.needsGrouping against := by
  cases against with
  | none => exact fun _ => rfl
  | some o =>
      apply coercion_induction
      · intro n type ih
        rw [uncoerced_typeCoerce, ih]
        exact (needsGrouping_some (.typeCoerce n type) o).symm
      · intro c hc _
        rw [uncoerced_mk hc, needsGrouping_some, needsGrouping_some]
        -- only a coercion passes the question on to its element
        cases c with
        | typeCoerce => cases hc
        | unary element op modifier => cases op <;> cases modifier <;> rfl
        | list clauses op => simp only [Clause.map, Clause.needsGrouping, List.length_map]
        | _ => rfl

/-- The parentheses of an operand are those that it gets without its coercions. -/
theorem uncoerced_selfGroup (n : Node) (against : Option Operator) :
    (n.selfGroup against).uncoerced = n.uncoerced.selfGroup against := by
  rw [selfGroup, selfGroup, needsGrouping_uncoerced]
  split
  · exact uncoerced_mk rfl
  · rfl

theorem uncoerced_not (n : Node) : n.not.uncoerced = n.uncoerced.not := by
  have hmk : n.not.uncoerced =
      mk (.unary (n.selfGroup (some .not)).uncoerced (some .not) none) := uncoerced_mk rfl
  rw [hmk, uncoerced_selfGroup]
  rfl

end Node

/-! ## 3. Rendering -/

/-- A layout is done alike over parts that are rendered alike. -/
theorem Layout.run_congr {α : Type} {s : Settings} {f g : α → RenderM String} :
    ∀ {l : Layout α}, (∀ a ∈ l.parts, f a s = g a s) → (l.map f).run s = (l.map g).run s
  | [], _ => rfl
  | .piece (.text text) :: rest, h => by
      have hrest := run_congr (l := rest) h
      show (do return text ++ (← (Layout.map f rest).run) : RenderM String) s =
        (do return text ++ (← (Layout.map g rest).run) : RenderM String) s
      rw [RenderM.bind_at, RenderM.bind_at, hrest]
  | .piece (.value v) :: rest, h => by
      have hrest := run_congr (l := rest) h
      show (do return (← RenderM.bindValue v) ++ (← (Layout.map f rest).run) : RenderM String) s =
        (do return (← RenderM.bindValue v) ++ (← (Layout.map g rest).run) : RenderM String) s
      simp only [RenderM.bind_at, hrest]
  | .part a :: rest, h => by
      have hrest := run_congr (l := rest) fun b hb => h b (List.mem_cons_of_mem a hb)
      show (do return (← f a) ++ (← (Layout.map f rest).run) : RenderM String) s =
        (do return (← g a) ++ (← (Layout.map g rest).run) : RenderM String) s
      simp only [RenderM.bind_at, h a List.mem_cons_self, hrest]

namespace Node

variable {s : Settings} (h : s.registry.element? "type_coerce" = some .typeCoerce)

include h

/-- **Coercions are not rendered**, wherever they stand in a tree. -/
theorem render_uncoerced : ∀ n : Node, n.uncoerced.render s = n.render s := by
  apply coercion_induction
  · intro n type ih
    rw [uncoerced_typeCoerce, ih, render_typeCoerce h]
  · intro c hc ih
    funext p
    rw [uncoerced_mk hc, render_apply, render_apply, sources_map_uncoerced, Style.layoutFor_map]
    cases hlayout : (s.style p.inDdl).layoutFor (mk c).sources c with
    | error e => rfl
    | ok layout =>
        have hparts : ∀ n ∈ layout.parts, (render ∘ uncoerced) n s = n.render s :=
          fun n hn => ih n (Style.mem_parts_of_layoutFor hlayout hn)
        show ((layout.map uncoerced).map render).run s p = (layout.map render).run s p
        rw [Layout.map_map, Layout.run_congr hparts]

variable {n m l r : Node}

/-- Trees that differ in coercions only are rendered alike. -/
theorem render_eq_of_uncoerced_eq (hnm : n.uncoerced = m.uncoerced) :
    n.render s = m.render s := by
  rw [← render_uncoerced h n, ← render_uncoerced h m, hnm]

/-- What operators make of them is rendered alike, though it may be of another type. -/
theorem render_op_eq_of_uncoerced_eq (hnm : n.uncoerced = m.uncoerced)
    (hlr : l.uncoerced = r.uncoerced) (o : Operator) :
    (n.op o l).render s = (m.op o r).render s := by
  have hoperand : ∀ {n m : Node}, n.uncoerced = m.uncoerced →
      (n.selfGroup (some o)).render s = (m.selfGroup (some o)).render s := by
    intro n m hnm
    refine render_eq_of_uncoerced_eq h ?_
    rw [uncoerced_selfGroup, uncoerced_selfGroup, hnm]
  rw [op, op]
  by_cases hbinary : s.registry.element? "binary" = some .binary
  · rw [render_binary hbinary, render_binary hbinary, hoperand hnm, hoperand hlr]
  · exact render_binary_of_no_rule hbinary ..

end Node

/-! ## 4. Compiling -/

/-- The expression under one coercion after the other. -/
def Node.coercedTo (n : Node) (types : List DataType) : Node := types.foldl typeCoerce n

theorem Node.uncoerced_coercedTo : ∀ (types : List DataType) (n : Node),
    (n.coercedTo types).uncoerced = n.uncoerced
  | [], _ => rfl
  | type :: types, n => by
      have hrest := uncoerced_coercedTo types (n.typeCoerce type)
      rw [uncoerced_typeCoerce] at hrest
      exact hrest

namespace Compiler

/-- **Coercions change no compiled text**, and no values or error either. A tree compiles as it does
without its coercions, in every dialect, with values bound or written into the text. An operator or
a negation over an expression with coercions around it, however many there are, compiles as it does
over the expression, whichever operand that is. -/
theorem compile_uncoerced {c : Compiler}
    (h : c.settings.registry.element? "type_coerce" = some .typeCoerce) :
    (∀ n : Node, c.compile n.uncoerced = c.compile n) ∧
    ∀ (e : Node) (types : List DataType),
      c.compile (e.coercedTo types).not = c.compile e.not ∧
      ∀ (o : Operator) (r : Node),
        c.compile ((e.coercedTo types).op o r) = c.compile (e.op o r) ∧
        c.compile (r.op o (e.coercedTo types)) = c.compile (r.op o e) := by
  refine ⟨fun n => compile_congr (Node.render_uncoerced h n), fun e types => ?_⟩
  have hsame := Node.uncoerced_coercedTo types e
  refine ⟨compile_congr (Node.render_eq_of_uncoerced_eq h ?_), fun o r =>
    ⟨compile_congr (Node.render_op_eq_of_uncoerced_eq h hsame rfl o),
      compile_congr (Node.render_op_eq_of_uncoerced_eq h rfl hsame o)⟩⟩
  rw [Node.uncoerced_not, Node.uncoerced_not, hsame]

/-- Guests who are late or early. -/
def lateOrEarly : Node := (Node.column "late").op .or (Node.column "early")

/-- The guests who are late or early and have paid. One column and the first criterion are given
other types, the latter twice. -/
def coercedGuests : Node :=
  Node.select ((Select.ofColumns [(Node.tableColumn "guests" "id" .integer).typeCoerce .text]
    |>.addCriterion (lateOrEarly.coercedTo [.integer, .boolean])).addCriterion (Node.column "paid"))

/-- The statement still selects from the guests, and the first criterion has its parentheses. -/
theorem compile_uncoerced_guests :
    let p := postgresql false
    let g := generic true
    p.settings.registry.element? "type_coerce" = some .typeCoerce ∧
      g.settings.registry.element? "type_coerce" = some .typeCoerce ∧
      (p.compile coercedGuests).1 =
        .ok ⟨"SELECT guests.id FROM guests WHERE (late OR early) AND paid", []⟩ ∧
      (g.compile (lateOrEarly.coercedTo [.integer, .boolean]).not).1 =
        .ok ⟨"NOT (late OR early)", []⟩ := by
  intro p g
  have hp : p.settings.registry.element? "type_coerce" = some .typeCoerce := rfl
  have hg : g.settings.registry.element? "type_coerce" = some .typeCoerce := rfl
  obtain ⟨htree, -⟩ := compile_uncoerced hp
  obtain ⟨-, hoperand⟩ := compile_uncoerced hg
  obtain ⟨hnot, -⟩ := hoperand lateOrEarly [.integer, .boolean]
  refine ⟨hp, hg, ?_, ?_⟩
  · rw [← htree coercedGuests]
    rfl
  · rw [hnot]
    rfl

end Compiler

end SqlClause
