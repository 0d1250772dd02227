import Mathlib.Data.List.Perm.Basic
import SqlClause.Proofs.Template

/-!
# Which values are bound

The values that a rendering binds are those of the bound values in the tree, each of them once. They
come in preorder, except that the clauses of a statement come in the order of their texts. Where
there is no `DISTINCT ON`, the terms that a statement has for it are left out of the text
(`Node.leftOut`), and exactly the values below those terms are not bound.

* `Node.leftOut_mk`: the terms that are left out, from those of the parts;
* `Node.values_template_perm`: every value is in the text or below a term that is left out;
* `Node.values_template`: without statements, the values come in preorder;
* **`Compiler.compile_binds_every_value`**: what the two compilers bind.
-/

namespace SqlClause

/-! ## 1. What is left out of a text -/

namespace Clause

variable {α β : Type}

theorem shown_map (supportsDistinctOn : Bool) (f : α → β) (c : Clause α) :
    (c.map f).shown supportsDistinctOn = (c.shown supportsDistinctOn).map f := by
  cases c with
  | select => cases supportsDistinctOn <;> rfl
  | _ => rfl

end Clause

namespace Node

/-- The terms in a tree that are left out of its text, without those that are below another one. -/
def leftOut (supportsDistinctOn : Bool) : Node → List Node :=
  fold fun n c =>
    n.clause.leftOut supportsDistinctOn ++ (c.shown supportsDistinctOn).parts.flatten

theorem leftOut_mk (supportsDistinctOn : Bool) (c : Clause Node) :
    (mk c).leftOut supportsDistinctOn = c.leftOut supportsDistinctOn
      ++ (c.shown supportsDistinctOn).parts.flatMap (leftOut supportsDistinctOn) := by
  rw [leftOut, fold_mk, Clause.shown_map, Clause.parts_map, List.flatMap_def]
  rfl

/-- Where there is `DISTINCT ON`, nothing is left out. -/
theorem leftOut_true : ∀ n : Node, n.leftOut true = [] := by
  apply induction
  intro c ih
  have hown : c.leftOut true = [] := by cases c <;> rfl
  rw [leftOut_mk, hown, List.nil_append, Clause.shown_true]
  exact List.flatMap_eq_nil_iff.mpr ih

end Node

/-! ## 2. The values of a template -/

/-- The values of the template of a part. -/
def Template.valuesOf (t : Except Error Template) : List Value :=
  match t with
  | .ok t => t.values
  | .error _ => []

/-- A template has the values of its layout and those of the parts, from left to right, and there
is a template only if there is one for every part. -/
theorem Layout.values_template {α : Type} {f : α → Except Error Template} :
    ∀ {l : Layout α} {t : Template}, template (map f l) = .ok t →
      t.values = l.gather ([·]) (fun a => Template.valuesOf (f a)) ∧
        ∀ a ∈ l.parts, ∃ u, f a = .ok u
  | [], t, h => by
      obtain rfl := Except.ok.inj h
      exact ⟨rfl, nofun⟩
  | .piece p :: rest, t, h => by
      have hstep : (do return p :: (← template (map f rest))) = Except.ok t := h
      cases hrest : template (map f rest) with
      | error e =>
          rw [hrest] at hstep
          cases hstep
      | ok u =>
          rw [hrest] at hstep
          obtain rfl := Except.ok.inj hstep
          obtain ⟨hvalues, hparts⟩ := values_template hrest
          cases p with
          | text s => exact ⟨hvalues, hparts⟩
          | value v => exact ⟨congrArg (v :: ·) hvalues, hparts⟩
  | .part a :: rest, t, h => by
      have hstep : (do return (← f a) ++ (← template (map f rest))) = Except.ok t := h
      cases hpart : f a with
      | error e =>
          rw [hpart] at hstep
          cases hstep
      | ok u =>
          cases hrest : template (map f rest) with
          | error e =>
              rw [hpart, hrest] at hstep
              cases hstep
          | ok w =>
              rw [hpart, hrest] at hstep
              obtain rfl := Except.ok.inj hstep
              obtain ⟨hvalues, hparts⟩ := values_template hrest
              have hfirst : Template.valuesOf (f a) = u.values := by rw [hpart]; rfl
              refine ⟨?_, ?_⟩
              · rw [Template.values_append, hvalues, ← hfirst]
                rfl
              · intro b hb
                rcases List.mem_cons.mp hb with rfl | hb
                · exact ⟨u, hpart⟩
                · exact hparts b hb

/-! ## 3. The values of a tree -/

namespace Node

variable {σ : Style} {c : Clause Node} {t : Template}

/-- The template of a node has the values that are gathered from a layout of its clause. -/
theorem values_template_mk (h : (mk c).template σ = .ok t) :
    c.isCustom = false ∧ ∃ casting,
      t.values = (c.layout σ casting (mk c).sources).gather ([·])
          (fun n => Template.valuesOf (n.template σ)) ∧
        ∀ n ∈ (c.layout σ casting (mk c).sources).parts, ∃ u, n.template σ = .ok u := by
  rw [template_mk] at h
  cases hlayout : σ.layoutFor (mk c).sources c with
  | error e =>
      rw [hlayout] at h
      cases h
  | ok layout =>
      rw [hlayout] at h
      obtain ⟨hcustom, casting, rfl⟩ := Style.layout_of_layoutFor hlayout
      exact ⟨hcustom, casting, Layout.values_template h⟩

/-- **Every bound value is in the text or below a term that is left out**, and in one place only. -/
theorem values_template_perm (σ : Style) : ∀ (n : Node) (t : Template), n.template σ = .ok t →
    (t.values ++ (n.leftOut σ.supportsDistinctOn).flatMap boundValues).Perm n.boundValues := by
  apply induction
  intro c ih t h
  obtain ⟨hcustom, casting, hvalues, hparts⟩ := values_template_mk h
  have hpart : ∀ n ∈ (c.shown σ.supportsDistinctOn).parts,
      (Template.valuesOf (n.template σ)
        ++ (n.leftOut σ.supportsDistinctOn).flatMap boundValues).Perm n.boundValues := by
    intro n hn
    have hperm := Clause.gather_layout_perm (fun _ => []) ([·]) σ casting (mk c).sources hcustom
    have hmem : n ∈ (c.layout σ casting (mk c).sources).parts :=
      hperm.mem_iff.mpr (by simpa using hn)
    obtain ⟨u, hu⟩ := hparts n hmem
    rw [hu]
    exact ih n (Clause.mem_parts_of_layout hmem) u hu
  have hshown := (List.flatMap_append_perm (c.shown σ.supportsDistinctOn).parts
    (fun n => Template.valuesOf (n.template σ))
    (fun n => (n.leftOut σ.supportsDistinctOn).flatMap boundValues)).trans
      (List.Perm.flatMap_left _ hpart)
  have hgather := Clause.gather_layout_perm ([·]) (fun n => Template.valuesOf (n.template σ)) σ
    casting (mk c).sources hcustom
  have hsplit := (Clause.parts_perm σ.supportsDistinctOn c).flatMap_right boundValues
  rw [boundValues_mk, leftOut_mk, hvalues]
  -- what is left is to put lists in another order, so it is enough to count
  refine List.perm_iff_count.mpr fun v => ?_
  have h₁ := hshown.count_eq v
  have h₂ := hgather.count_eq v
  have h₃ := hsplit.count_eq v
  simp only [List.count_append, List.flatMap_append, List.flatMap_assoc,
    List.flatMap_singleton'] at h₁ h₂ h₃ ⊢
  omega

/-- No node of the tree is a statement. -/
def SelectFree (n : Node) : Prop := ∀ m ∈ n.iterate, ∀ s, m.clause ≠ .select s

theorem selectFree_mk : (mk c).SelectFree ↔ (∀ s, c ≠ .select s) ∧ ∀ n ∈ c.parts, n.SelectFree := by
  simp only [SelectFree, iterate_eq_preorder]
  exact forall_preorder_mk

/-- A tree is free of statements if its tags are. -/
theorem selectFree_of_tag {n : Node} (h : ∀ m ∈ n.preorder, m.tag ≠ "select") : n.SelectFree := by
  intro m hm s hselect
  rw [iterate_eq_preorder] at hm
  exact h m hm (congrArg Clause.tag hselect)

/-- **Without statements, the values come in preorder.** -/
theorem values_template (σ : Style) : ∀ (n : Node) (t : Template), n.SelectFree →
    n.template σ = .ok t → t.values = n.boundValues := by
  apply induction
  intro c ih t hfree h
  obtain ⟨hselect, hfree⟩ := selectFree_mk.mp hfree
  obtain ⟨hcustom, casting, hvalues, hparts⟩ := values_template_mk h
  have hpart : ∀ n ∈ c.parts, Template.valuesOf (n.template σ) = n.boundValues := by
    intro n hn
    have hgather := Clause.gather_layout (fun _ => []) ([·]) σ casting (mk c).sources hcustom
      hselect
    have hmem : n ∈ (c.layout σ casting (mk c).sources).parts := by
      rw [Layout.parts, hgather]
      simpa using hn
    obtain ⟨u, hu⟩ := hparts n hmem
    rw [hu]
    exact ih n hn u (hfree n hn) hu
  rw [hvalues, Clause.gather_layout _ _ _ _ _ hcustom hselect, boundValues_mk,
    List.flatMap_singleton']
  exact congrArg _ (List.flatMap_congr hpart)

end Node

/-! ## 4. What compilers bind -/

namespace Compiler

/-- What is bound and what is below terms that are left out are the values of the whole tree. -/
theorem params_perm (d : Dialect) (registry : Registry) (collected : List Value) {n : Node}
    {r : Compiled} (h : ((having ⟨d, registry, false⟩ collected).compile n).1 = .ok r) :
    (r.params ++ (n.leftOut d.supportsDistinctOn).flatMap
      fun m => m.iterate.filterMap Node.boundValue?).Perm
        (n.iterate.filterMap Node.boundValue?) := by
  obtain ⟨t, htemplate, rfl⟩ := template_of_compile _ collected n h
  have hperm := Node.values_template_perm _ n t htemplate
  simp only [Node.iterate_eq_preorder]
  exact hperm

theorem params_of_selectFree (d : Dialect) (registry : Registry) (collected : List Value)
    {n : Node} {r : Compiled} (hfree : n.SelectFree)
    (h : ((having ⟨d, registry, false⟩ collected).compile n).1 = .ok r) :
    r.params = n.iterate.filterMap Node.boundValue? := by
  obtain ⟨t, htemplate, rfl⟩ := template_of_compile _ collected n h
  rw [Node.iterate_eq_preorder]
  exact Node.values_template _ n t hfree htemplate

/-- **No bound value is lost or bound twice.** The compiler of PostgreSQL binds the values of all
nodes, and in their order if no node is a statement. By the core rules, where there is no
`DISTINCT ON`, the same holds except for the values below the terms that statements have for it. -/
theorem compile_binds_every_value (collected : List Value) (n : Node) (r : Compiled) :
    (((having ⟨.postgresql, .postgresql, false⟩ collected).compile n).1 = .ok r →
      r.params.Perm (n.iterate.filterMap Node.boundValue?) ∧
      (n.SelectFree → r.params = n.iterate.filterMap Node.boundValue?)) ∧
    ∀ d : Dialect, d.supportsDistinctOn = false →
      ((having ⟨d, .core, false⟩ collected).compile n).1 = .ok r →
        (r.params ++ (n.leftOut false).flatMap
          fun m => m.iterate.filterMap Node.boundValue?).Perm
            (n.iterate.filterMap Node.boundValue?) ∧
        (n.SelectFree → r.params = n.iterate.filterMap Node.boundValue?) := by
  constructor
  · intro h
    have hperm := params_perm .postgresql .postgresql collected h
    have hleftOut : n.leftOut Dialect.postgresql.supportsDistinctOn = [] := n.leftOut_true
    rw [hleftOut, List.flatMap_nil, List.append_nil] at hperm
    exact ⟨hperm, fun hfree => params_of_selectFree _ _ collected hfree h⟩
  · intro d hd h
    have hperm := params_perm d .core collected h
    rw [hd] at hperm
    exact ⟨hperm, fun hfree => params_of_selectFree d .core collected hfree h⟩

/-- A statement with a value in its column and one in its term of `DISTINCT ON`. -/
def distinctBy (term column : Value) : Node :=
  Node.select { Select.ofColumns [Node.literal column] with distinctOn := [Node.literal term] }

/-- A comparison of two values. -/
def comparison (left right : Value) : Node :=
  ⟨.binary (Node.literal left) .eq (Node.literal right) .boolean⟩

theorem selectFree_comparison (left right : Value) : (comparison left right).SelectFree := by
  refine Node.selectFree_mk.mpr ⟨nofun, fun n hn => ?_⟩
  rcases List.mem_pair.mp hn with rfl | rfl
  · exact Node.selectFree_mk.mpr ⟨nofun, nofun⟩
  · exact Node.selectFree_mk.mpr ⟨nofun, nofun⟩

/-- The term comes first in the text and last in the walk, and is left out by the core rules. -/
theorem compile_binds_every_value_distinctBy :
    (((having ⟨.postgresql, .postgresql, false⟩ []).compile (distinctBy (.int 1) (.int 2))).1 =
        .ok ⟨"SELECT DISTINCT ON ($1) $2", [.int 1, .int 2]⟩ ∧
      [Value.int 1, .int 2].Perm
        ((distinctBy (.int 1) (.int 2)).iterate.filterMap Node.boundValue?)) ∧
    (((having ⟨.postgresql, .postgresql, false⟩ []).compile (comparison (.int 1) (.int 2))).1 =
        .ok ⟨"$1 = $2", [.int 1, .int 2]⟩ ∧
      [Value.int 1, .int 2] =
        (comparison (.int 1) (.int 2)).iterate.filterMap Node.boundValue?) ∧
    ((having ⟨.generic, .core, false⟩ []).compile (distinctBy (.int 1) (.int 2))).1 =
        .ok ⟨"SELECT ?", [.int 2]⟩ ∧
      ([Value.int 2] ++ ((distinctBy (.int 1) (.int 2)).leftOut false).flatMap
        fun m => m.iterate.filterMap Node.boundValue?).Perm
          ((distinctBy (.int 1) (.int 2)).iterate.filterMap Node.boundValue?) := by
  have hterms : ((having ⟨.postgresql, .postgresql, false⟩ []).compile
      (distinctBy (.int 1) (.int 2))).1 =
        .ok ⟨"SELECT DISTINCT ON ($1) $2", [.int 1, .int 2]⟩ := by decide
  have hcomparison : ((having ⟨.postgresql, .postgresql, false⟩ []).compile
      (comparison (.int 1) (.int 2))).1 = .ok ⟨"$1 = $2", [.int 1, .int 2]⟩ := by decide
  have hcore : ((having ⟨.generic, .core, false⟩ []).compile (distinctBy (.int 1) (.int 2))).1 =
      .ok ⟨"SELECT ?", [.int 2]⟩ := by decide
  obtain ⟨hperm, -⟩ := (compile_binds_every_value [] _ _).1 hterms
  obtain ⟨-, hordered⟩ := (compile_binds_every_value [] _ _).1 hcomparison
  obtain ⟨hsplit, -⟩ := (compile_binds_every_value [] _ _).2 .generic rfl hcore
  exact ⟨⟨hterms, hperm⟩, ⟨hcomparison, hordered (selectFree_comparison _ _)⟩, hcore, hsplit⟩

end Compiler

end SqlClause
