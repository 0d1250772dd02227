import Mathlib.Data.List.Forall2
import SqlClause.Node.Compare
import SqlClause.Proofs.Preorder

/-!
# Shapes of trees

The shape of a tree is what is left when every value in it is blanked out. Two trees agree exactly
if they have one shape and their values are equal one by one (`Node.agrees_iff`), so whatever can
be told from the shape is the same for trees that differ in their values alone. The values are
taken from the attributes, in order; in a built-in tree they are the bound values
(`Node.values_eq_boundValues`).

* `Clause.eq_of_attributes`: a clause is known by its kind and its attributes;
* `Node.shape_mk`: the shape of a node, from the shapes of its parts;
* `Node.fold_shape`: what a rule does not see in a clause is not seen in the tree;
* **`Node.agrees_iff`**: agreement is agreement of the shapes and of the values.
-/

namespace SqlClause

/-! ## 1. Clauses of one kind -/

/-- Different keywords have different tags. -/
theorem Keyword.tag_inj {k l : Keyword} (h : k.tag = l.tag) : k = l := by
  revert h
  cases k <;> cases l <;> decide

namespace Clause

variable {α β : Type}

theorem sameKind_iff {a : Clause α} {b : Clause β} :
    a.sameKind b = true ↔ a.isCustom = b.isCustom ∧ a.tag = b.tag := by
  simp [sameKind]

/-- The clauses are built by one constructor, keywords for one word and custom clauses for one
tag. -/
inductive SameConstructor : Clause α → Clause β → Prop where
  | column {c d} : SameConstructor (column c) (column d)
  | bind {p q} : SameConstructor (bind p) (bind q)
  | text {s t} : SameConstructor (text s) (text t)
  | keyword {k} : SameConstructor (keyword k) (keyword k)
  | binary {l o r t l' o' r' t'} : SameConstructor (binary l o r t) (binary l' o' r' t')
  | unary {e o m e' o' m'} : SameConstructor (unary e o m) (unary e' o' m')
  | list {cs o cs' o'} : SameConstructor (list cs o) (list cs' o')
  | grouping {e e'} : SameConstructor (grouping e) (grouping e')
  | function {n as t n' as' t'} : SameConstructor (function n as t) (function n' as' t')
  | cast {e t e' t'} : SameConstructor (cast e t) (cast e' t')
  | typeCoerce {e t e' t'} : SameConstructor (typeCoerce e t) (typeCoerce e' t')
  | label {n e n' e'} : SameConstructor (label n e) (label n' e')
  | select {s s'} : SameConstructor (select s) (select s')
  | hint {e e'} : SameConstructor (hint e) (hint e')
  | orderedAggregate {e t o e' t' o'} :
      SameConstructor (orderedAggregate e t o) (orderedAggregate e' t' o')
  | distinctOn {ts ts'} : SameConstructor (distinctOn ts) (distinctOn ts')
  | custom {tag as as'} : SameConstructor (custom tag as) (custom tag as')

/-- No other clause has the tag of a keyword. -/
theorem eq_keyword_of_tag {c : Clause α} {k : Keyword} (hc : c.isCustom = false)
    (h : c.tag = k.tag) : c = keyword k := by
  cases c with
  | keyword l => rw [Keyword.tag_inj h]
  | custom => cases hc
  | _ => cases k <;> simp [tag, Keyword.tag] at h

theorem sameConstructor_of_sameKind {a : Clause α} {b : Clause β} (h : a.sameKind b = true) :
    SameConstructor a b := by
  obtain ⟨hcustom, htag⟩ := sameKind_iff.mp h
  cases a with
  | keyword k =>
      rw [eq_keyword_of_tag hcustom.symm htag.symm]
      exact .keyword
  | custom tag as =>
      cases b with
      | custom tag' as' =>
          obtain rfl : tag = tag' := htag
          exact .custom
      | _ => cases hcustom
  | _ =>
      cases b with
      | keyword k => cases eq_keyword_of_tag hcustom htag
      | custom => cases hcustom
      | _ => first | constructor | simp [tag] at htag

/-- **A clause is known by its kind and its attributes.** -/
theorem eq_of_attributes {a b : Clause α} (hkind : a.sameKind b = true)
    (h : a.attributes = b.attributes) : a = b := by
  cases sameConstructor_of_sameKind hkind with
  | @column c d =>
      rcases c with ⟨name, table, type, literal⟩
      rcases d with ⟨name', table', type', literal'⟩
      simp only [attributes, List.cons.injEq, Prod.mk.injEq, Attribute.string.injEq,
        Attribute.type.injEq, Attribute.boolean.injEq, Option.some.injEq, true_and, and_true] at h
      obtain ⟨rfl, hname, hschema, rfl, rfl⟩ := h
      have htable : table = table' := by
        rcases table with _ | ⟨schema, t⟩ <;> rcases table' with _ | ⟨schema', t'⟩
        · rfl
        · cases hname
        · cases hname
        · rw [show schema = schema' from hschema, show t = t' from Option.some.inj hname]
      rw [htable]
  | @bind p q =>
      rcases p with ⟨key, value, type⟩
      rcases q with ⟨key', value', type'⟩
      simp only [attributes, List.cons.injEq, Prod.mk.injEq, Attribute.string.injEq,
        Attribute.type.injEq, Attribute.value.injEq, true_and, and_true] at h
      obtain ⟨rfl, rfl, rfl⟩ := h
      rfl
  | @binary l o r t l' o' r' t' =>
      simp only [attributes, List.cons.injEq, Prod.mk.injEq, Attribute.element.injEq,
        Attribute.string.injEq, Attribute.type.injEq, Option.some.injEq, true_and, and_true] at h
      obtain ⟨rfl, ho, rfl, rfl⟩ := h
      rw [Operator.sql_inj ho]
  | @unary e o m e' o' m' =>
      simp only [attributes, List.cons.injEq, Prod.mk.injEq, Attribute.element.injEq,
        Attribute.string.injEq, true_and, and_true] at h
      obtain ⟨rfl, ho, hm⟩ := h
      rw [Option.map_injective (fun _ _ => Operator.sql_inj) ho,
        Option.map_injective (fun _ _ => Modifier.sql_inj) hm]
  | @list cs o cs' o' =>
      simp only [attributes, List.cons.injEq, Prod.mk.injEq, Attribute.elementList.injEq,
        Attribute.string.injEq, Option.some.injEq, true_and, and_true] at h
      obtain ⟨rfl, ho⟩ := h
      rw [Operator.sql_inj ho]
  | @select s s' =>
      cases s
      cases s'
      simpa [attributes] using h
  | custom => exact congrArg _ h
  | keyword => rfl
  | _ => simpa [attributes] using h

end Clause

/-! ## 2. Blanks in the place of values -/

namespace Attribute

variable {α β : Type}

/-- The attribute with a blank in the place of its value. -/
def blank : Attribute α → Attribute α
  | value _ => value .null
  | a => a

/-- The values of an attribute, from the values of its parts. -/
def values : Attribute (List Value) → List Value
  | value v => [v]
  | a => a.parts.flatten

theorem blank_map (f : α → β) (a : Attribute α) : (a.map f).blank = a.blank.map f := by
  cases a <;> rfl

/-- Functions that are alike on the parts of an attribute do the same to it. -/
theorem map_congr {f g : α → β} {a : Attribute α} (h : ∀ x ∈ a.parts, f x = g x) :
    a.map f = a.map g := by
  cases a with
  | element part => exact congrArg element (h part (List.mem_singleton_self part))
  | optionalElement part =>
      cases part with
      | none => rfl
      | some part => exact congrArg (optionalElement ∘ some) (h part (List.mem_singleton_self part))
  | elementList parts => exact congrArg elementList (List.map_congr_left h)
  | _ => rfl

/-- Blanks among the values of the parts and blanks of its own are the blanks of an attribute. -/
theorem values_blank (a : Attribute (List Value)) :
    ((a.map fun vs => vs.map fun _ => Value.null).blank).values =
      a.values.map fun _ => Value.null := by
  cases a with
  | elementList vss => exact List.map_flatten.symm
  | optionalElement vs => cases vs <;> simp [map, blank, values, parts]
  | _ => simp [map, blank, values, parts]

end Attribute

namespace Clause

variable {α β : Type}

/-- The clause with blanks in the place of its own values. -/
def blank : Clause α → Clause α
  | bind p => bind { p with value := .null }
  | custom tag attributes => custom tag (attributes.map fun a => (a.1, a.2.blank))
  | c => c

/-- The values of a clause, from the values of its parts. -/
def values (c : Clause (List Value)) : List Value := c.attributes.flatMap fun a => a.2.values

@[simp] theorem tag_blank (c : Clause α) : c.blank.tag = c.tag := by
  cases c <;> rfl

@[simp] theorem isCustom_blank (c : Clause α) : c.blank.isCustom = c.isCustom := by
  cases c <;> rfl

theorem attributes_blank (c : Clause α) :
    c.blank.attributes = c.attributes.map fun a => (a.1, a.2.blank) := by
  cases c <;> rfl

theorem parts_blank (c : Clause α) : c.blank.parts = c.parts := by
  rw [parts, parts, attributes_blank, List.flatMap_map]
  refine congrArg (List.flatMap · c.attributes) (funext fun a => ?_)
  cases a.2 <;> rfl

theorem blank_map (f : α → β) (c : Clause α) : (c.map f).blank = c.blank.map f := by
  cases c with
  | custom tag attributes => simp [map, blank, Attribute.blank_map]
  | _ => rfl

/-- Functions that are alike on the parts of a clause do the same to it. -/
theorem map_congr {f g : α → β} {c : Clause α} (h : ∀ x ∈ c.parts, f x = g x) :
    c.map f = c.map g := by
  have hkind : (c.map f).sameKind (c.map g) = true := by simp [sameKind]
  have hattributes : ∀ a ∈ c.attributes, (a.1, a.2.map f) = (a.1, a.2.map g) :=
    fun a ha => congrArg (Prod.mk a.1)
      (Attribute.map_congr fun x hx => h x (List.mem_flatMap.mpr ⟨a, ha, hx⟩))
  refine eq_of_attributes hkind ?_
  rw [attributes_map, attributes_map, List.map_congr_left hattributes]

theorem values_blank (c : Clause (List Value)) :
    ((c.map fun vs => vs.map fun _ => Value.null).blank).values =
      c.values.map fun _ => Value.null := by
  rw [values, values, attributes_blank, attributes_map, List.flatMap_map, List.flatMap_map,
    List.map_flatMap]
  exact List.flatMap_congr fun a _ => Attribute.values_blank a.2

/-- A built-in clause has its own value and those of its parts. -/
theorem values_of_builtIn {c : Clause (List Value)} (h : c.isCustom = false) :
    c.values = c.boundValue?.toList ++ c.parts.flatten := by
  cases c with
  | custom => cases h
  | _ => simp [values, parts, attributes, boundValue?, Attribute.values, Attribute.parts]

end Clause

namespace Node

/-! ## 3. Shapes and values of trees -/

/-- The tree with a blank in the place of every value. -/
def shape : Node → Node := fold fun _ c => mk c.blank

/-- The values in the attributes of a tree, in order. -/
def values : Node → List Value := fold fun _ c => c.values

theorem shape_mk (c : Clause Node) : (mk c).shape = mk (c.map shape).blank := fold_mk ..

theorem values_mk (c : Clause Node) : (mk c).values = (c.map values).values := fold_mk ..

/-- What a rule does not see in a clause is not seen in the tree. -/
theorem fold_shape {β : Type} {g : Clause β → β} (h : ∀ c, g c.blank = g c) :
    ∀ n : Node, n.shape.fold (fun _ c => g c) = n.fold fun _ c => g c := by
  apply induction
  intro c ih
  have hparts : (c.map shape).map (fold fun _ c => g c) = c.map (fold fun _ c => g c) := by
    rw [Clause.map_map]
    exact Clause.map_congr ih
  rw [shape_mk, fold_mk, fold_mk, ← Clause.blank_map, h, hparts]

/-- **A built-in tree has no values but those that it binds.** -/
theorem values_eq_boundValues : ∀ n : Node, n.BuiltIn → n.values = n.boundValues := by
  apply induction
  intro c ih hb
  obtain ⟨hc, hparts⟩ := builtIn_mk.mp hb
  have hmap : c.parts.map values = c.parts.map boundValues :=
    List.map_congr_left fun n hn => ih n hn (hparts n hn)
  have hown : (c.map values).boundValue? = c.boundValue? := by
    cases c <;> rfl
  rw [values_mk, Clause.values_of_builtIn (by rw [Clause.isCustom_map, hc]), boundValues_mk,
    Clause.parts_map, hmap, hown, List.flatMap_def]

/-- Trees have one shape if and only if they are of one kind and their attributes do. -/
theorem shape_mk_eq_iff {c d : Clause Node} :
    (mk c).shape = (mk d).shape ↔ c.sameKind d = true ∧
      c.attributes.map (fun a => (a.1, (a.2.map shape).blank)) =
        d.attributes.map (fun a => (a.1, (a.2.map shape).blank)) := by
  have hattributes : ∀ c : Clause Node, (c.map shape).blank.attributes =
      c.attributes.map fun a => (a.1, (a.2.map shape).blank) := by
    intro c
    rw [Clause.attributes_blank, Clause.attributes_map, List.map_map]
    rfl
  have hkind : (c.map shape).blank.sameKind (d.map shape).blank = c.sameKind d := by
    simp [Clause.sameKind]
  rw [shape_mk, shape_mk, ← hattributes, ← hattributes]
  constructor
  · intro h
    have h' := mk.inj h
    refine ⟨?_, congrArg _ h'⟩
    rw [← hkind, h', Clause.sameKind_iff]
    exact ⟨rfl, rfl⟩
  · rintro ⟨hk, h⟩
    rw [Clause.eq_of_attributes (hkind.trans hk) h]

/-- The values of a shape are blanks, as many as there were values. -/
theorem values_shape : ∀ n : Node, n.shape.values = n.values.map fun _ => Value.null := by
  apply induction
  intro c ih
  have hparts : (c.map shape).map values =
      (c.map values).map fun vs => vs.map fun _ => Value.null := by
    rw [Clause.map_map, Clause.map_map]
    exact Clause.map_congr ih
  rw [shape_mk, values_mk, values_mk, ← Clause.blank_map, hparts, Clause.values_blank]

theorem length_values_eq {n m : Node} (h : n.shape = m.shape) :
    n.values.length = m.values.length := by
  have hv := congrArg List.length ((values_shape n).symm.trans ((congrArg values h).trans
    (values_shape m)))
  simpa using hv

end Node

/-! ## 4. Agreement -/

/-- The two lists hold equal values, one by one. -/
def EqualValues (vs ws : List Value) : Prop := List.Forall₂ (fun v w => v.equals w = true) vs ws

theorem equalValues_append_iff : ∀ {vs ws vs' ws' : List Value}, vs.length = ws.length →
    (EqualValues (vs ++ vs') (ws ++ ws') ↔ EqualValues vs ws ∧ EqualValues vs' ws')
  | [], [], _, _, _ => by simp [EqualValues]
  | [], _ :: _, _, _, h => by cases h
  | _ :: _, [], _, _, h => by cases h
  | v :: vs, w :: ws, vs', ws', h => by
      have ih : EqualValues (vs ++ vs') (ws ++ ws') ↔ EqualValues vs ws ∧ EqualValues vs' ws' :=
        equalValues_append_iff (Nat.succ.inj h)
      unfold EqualValues at ih ⊢
      rw [List.cons_append, List.cons_append, List.forall₂_cons, List.forall₂_cons, ih, and_assoc]

/-- Lists agree item by item if that is what the items do. `key` is what has to be the same and
`values` what has to be equal. -/
theorem allAgree_map_iff {α β γ : Type} {test : α → β → Bool} {key : α → γ} {key' : β → γ}
    {values : α → List Value} {values' : β → List Value} : ∀ {as : List α} (bs : List β),
      (∀ a ∈ as, ∀ b, test a b = true ↔ key a = key' b ∧ EqualValues (values a) (values' b)) →
      (∀ a ∈ as, ∀ b, key a = key' b → (values a).length = (values' b).length) →
      (allAgree (as.map test) bs = true ↔
        as.map key = bs.map key' ∧ EqualValues (as.flatMap values) (bs.flatMap values'))
  | [], [], _, _ => by simp [allAgree, EqualValues]
  | [], _ :: _, _, _ => by simp [allAgree]
  | _ :: _, [], _, _ => by simp [allAgree]
  | a :: as, b :: bs, htest, hlen => by
      have ih := allAgree_map_iff bs (fun a ha => htest a (List.mem_cons_of_mem _ ha))
        (fun a ha => hlen a (List.mem_cons_of_mem _ ha))
      have hhead := htest a List.mem_cons_self b
      have hsplit : key a = key' b →
          (EqualValues ((a :: as).flatMap values) ((b :: bs).flatMap values') ↔
            EqualValues (values a) (values' b) ∧
              EqualValues (as.flatMap values) (bs.flatMap values')) := by
        intro hk
        rw [List.flatMap_cons, List.flatMap_cons]
        exact equalValues_append_iff (hlen a List.mem_cons_self b hk)
      rw [List.map_cons, allAgree, Bool.and_eq_true, hhead, ih, List.map_cons, List.map_cons,
        List.cons.injEq]
      constructor
      · rintro ⟨⟨hk, hv⟩, hks, hvs⟩
        exact ⟨⟨hk, hks⟩, (hsplit hk).mpr ⟨hv, hvs⟩⟩
      · rintro ⟨⟨hk, hks⟩, h⟩
        obtain ⟨hv, hvs⟩ := (hsplit hk).mp h
        exact ⟨⟨hk, hv⟩, hks, hvs⟩

theorem attributesAgree_eq_allAgree {α : Type} :
    ∀ (as : List (String × Attribute (α → Bool))) (bs : List (String × Attribute α)),
      attributesAgree as bs =
        allAgree (as.map fun a b => a.1 == b.1 && a.2.agrees b.2) bs
  | [], [] => rfl
  | [], _ :: _ => rfl
  | _ :: _, [] => rfl
  | _ :: as, _ :: bs => by
      rw [attributesAgree, List.map_cons, allAgree, attributesAgree_eq_allAgree as bs]

namespace Attribute

/-- Attributes of one shape have as many values. -/
theorem length_values_eq {a b : Attribute Node}
    (h : (a.map Node.shape).blank = (b.map Node.shape).blank) :
    (a.map Node.values).values.length = (b.map Node.values).values.length := by
  have hvalues : ∀ a : Attribute Node, (((a.map Node.shape).blank).map Node.values).values =
      (a.map Node.values).values.map fun _ => Value.null := by
    intro a
    have hparts : (a.map Node.shape).map Node.values =
        (a.map Node.values).map fun vs => vs.map fun _ => Value.null := by
      rw [map_map, map_map]
      exact map_congr fun n _ => Node.values_shape n
    rw [← blank_map, hparts, values_blank]
  have hsame := congrArg (fun a => (a.map Node.values).values.length) h
  simpa only [hvalues, List.length_map] using hsame

/-- **Attributes agree if they have one shape and equal values.** -/
theorem agrees_iff {a b : Attribute Node}
    (ih : ∀ n ∈ a.parts, ∀ m : Node,
      n.agrees m = true ↔ n.shape = m.shape ∧ EqualValues n.values m.values) :
    (a.map Node.agrees).agrees b = true ↔
      (a.map Node.shape).blank = (b.map Node.shape).blank ∧
        EqualValues (a.map Node.values).values (b.map Node.values).values := by
  cases a with
  | element part =>
      cases b with
      | element other =>
          simpa [map, agrees, blank, Attribute.values, Attribute.parts] using
            ih part (List.mem_singleton_self part) other
      | _ => simp [map, agrees, blank]
  | optionalElement part =>
      cases b with
      | optionalElement other =>
          rcases part with _ | part <;> rcases other with _ | other
          · simp [map, agrees, blank, Attribute.values, Attribute.parts, EqualValues]
          · simp [map, agrees, blank]
          · simp [map, agrees, blank]
          · simpa [map, agrees, blank, Attribute.values, Attribute.parts] using
              ih part (List.mem_singleton_self part) other
      | _ => simp [map, agrees, blank]
  | elementList parts =>
      cases b with
      | elementList others =>
          have hlist := allAgree_map_iff others ih
            fun n _ m hnm => Node.length_values_eq hnm
          simpa [map, agrees, blank, Attribute.values, Attribute.parts, List.flatMap_def]
            using hlist
      | _ => simp [map, agrees, blank]
  | _ => cases b <;> simp [map, agrees, blank, Attribute.values, Attribute.parts, EqualValues]

end Attribute

namespace Node

/-- **Two trees agree if and only if they have one shape and their values are equal one by one.** -/
theorem agrees_iff : ∀ n m : Node,
    n.agrees m = true ↔ n.shape = m.shape ∧ EqualValues n.values m.values := by
  apply induction
  rintro c ih ⟨d⟩
  have hattribute : ∀ a ∈ c.attributes, ∀ b : String × Attribute Node,
      (a.1 == b.1 && (a.2.map agrees).agrees b.2) = true ↔
        (a.1, (a.2.map shape).blank) = (b.1, (b.2.map shape).blank) ∧
          EqualValues (a.2.map values).values (b.2.map values).values := by
    intro a ha b
    have ih' := Attribute.agrees_iff (a := a.2) (b := b.2)
      fun n hn => ih n (List.mem_flatMap.mpr ⟨a, ha, hn⟩)
    rw [Bool.and_eq_true, beq_iff_eq, ih', Prod.mk.injEq, and_assoc]
  have hlength : ∀ a ∈ c.attributes, ∀ b : String × Attribute Node,
      (a.1, (a.2.map shape).blank) = (b.1, (b.2.map shape).blank) →
        (a.2.map values).values.length = (b.2.map values).values.length :=
    fun a _ b h => Attribute.length_values_eq (Prod.mk.inj h).2
  have hlist := allAgree_map_iff d.attributes hattribute hlength
  have hvalues : ∀ c : Clause Node,
      (mk c).values = c.attributes.flatMap fun a => (a.2.map values).values := by
    intro c
    rw [values_mk, Clause.values, Clause.attributes_map, List.flatMap_map]
  have hkind : (c.map agrees).sameKind d = c.sameKind d := by
    simp [Clause.sameKind]
  rw [agrees_mk, Clause.agrees, clause, hkind, Bool.and_eq_true, attributesAgree_eq_allAgree,
    Clause.attributes_map, List.map_map, shape_mk_eq_iff, hvalues, hvalues, and_assoc]
  exact and_congr_right fun _ => hlist

/-- A tree agrees with itself if and only if no value in it is a NaN. -/
theorem agrees_self_iff (n : Node) : n.agrees n = true ↔ ∀ v ∈ n.values, v.isNaN = false := by
  rw [agrees_iff, EqualValues, List.forall₂_same]
  simp only [true_and, Value.equals_self, Bool.not_eq_true']

end Node

end SqlClause
