import Mathlib.Data.List.Find
import SqlClause.Proofs.Outcome
import SqlClause.Proofs.Template

/-!
# What registries cover

A rule of a registry never refuses a clause that the registry takes it for, and no rule fails on
its own: what cannot be compiled has a node that is shown and whose tag has no rule. The error
names the first of these nodes, in the order in which the rules come to them. A node comes before
its parts, and the parts of a statement come in the order of its text, which is not that of its
attributes.

* `Registry.element?_core`, `Registry.element?_postgresql`: the rules of the registries, clause by
  clause;
* `Node.mem_rendered_iff`: which nodes the rules come to;
* `Node.failure?_template`: why there is no template;
* **`Compiler.compile_fails_at_first_uncovered`**: when compiling fails, and with which error.
-/

namespace SqlClause

/-! ## 1. The rules of a registry -/

namespace Clause

variable {α : Type} (c : Clause α)

/-- The clause is of a kind that every database knows. -/
def isCore : Clause α → Bool
  | orderedAggregate .. | distinctOn _ | custom .. => false
  | _ => true

theorem isCustom_of_isCore (h : c.isCore = true) : c.isCustom = false := by
  cases c with
  | custom => cases h
  | _ => rfl

theorem rules_ne_nil (h : c.isCustom = false) : c.rules ≠ [] := by
  cases c with
  | custom => cases h
  | _ => exact List.cons_ne_nil _ _

end Clause

namespace Registry

variable {α : Type} {c : Clause α}

/-- The first registry has the plain rule for every clause that all databases know. -/
theorem element?_core (h : c.isCustom = false) :
    core.element? c.tag = if c.isCore then c.rules.head? else none := by
  cases c with
  | custom => cases h
  | keyword k => cases k <;> rfl
  | _ =>
      simp only [Clause.tag, Clause.rules, Clause.isCore]
      rfl

/-- The other one has a rule for every clause, and of two rules for a kind the last one. -/
theorem element?_postgresql (h : c.isCustom = false) :
    postgresql.element? c.tag = c.rules.getLast? := by
  cases c with
  | custom => cases h
  | keyword k => cases k <;> rfl
  | _ =>
      simp only [Clause.tag, Clause.rules]
      rfl

theorem element?_core_ne_none (h : c.isCore = true) : core.element? c.tag ≠ none := by
  rw [element?_core (c.isCustom_of_isCore h), h, if_pos rfl, ne_eq, List.head?_eq_none_iff]
  exact c.rules_ne_nil (c.isCustom_of_isCore h)

theorem element?_postgresql_ne_none (h : c.isCustom = false) :
    postgresql.element? c.tag ≠ none := by
  rw [element?_postgresql h, ne_eq, List.getLast?_eq_none_iff]
  exact c.rules_ne_nil h

/-- The rule for a tag, if there is one, is for the clauses that have the tag. -/
def Faithful (r : Registry) : Prop :=
  ∀ {α : Type} (c : Clause α), c.isCustom = false → ∀ rule ∈ r.element? c.tag, rule ∈ c.rules

theorem faithful_core : core.Faithful := by
  intro α c hc rule hrule
  rw [element?_core hc] at hrule
  cases hcore : c.isCore with
  | false =>
      rw [hcore] at hrule
      cases hrule
  | true =>
      rw [hcore] at hrule
      exact List.mem_of_mem_head? hrule

theorem faithful_postgresql : postgresql.Faithful := by
  intro α c hc rule hrule
  rw [element?_postgresql hc] at hrule
  exact List.mem_of_getLast? hrule

/-- The registry has no rule for the tag of the node. -/
def leavesOut (r : Registry) (n : Node) : Bool := (r.element? n.tag).isNone

end Registry

/-! ## 2. The order of the text -/

namespace Clause

variable {α β : Type}

/-- The parts that are shown, in the order of their texts. -/
def inTextOrder (supportsDistinctOn : Bool) : Clause α → List α
  | select s =>
      (if supportsDistinctOn then s.distinctOn else []) ++ s.preColumns ++ s.columns
        ++ s.criterion.toList ++ s.postCriteria ++ s.groupBy ++ s.orderBy ++ s.postBody
  | c => c.parts

theorem inTextOrder_map (f : α → β) (b : Bool) (c : Clause α) :
    (c.map f).inTextOrder b = (c.inTextOrder b).map f := by
  cases c with
  | select s => cases b <;> simp [map, inTextOrder, Select.map, Option.toList_map]
  | _ => exact parts_map f _

theorem mem_inTextOrder {b : Bool} {c : Clause α} {a : α} :
    a ∈ c.inTextOrder b ↔ a ∈ (c.shown b).parts := by
  cases c with
  | select s =>
      simp only [inTextOrder, shown, parts, attributes, Attribute.parts, List.flatMap_cons,
        List.flatMap_nil, List.mem_append, List.append_nil, List.nil_append]
      tauto
  | _ => exact Iff.rfl

/-- The parts of a layout are those that are shown, in the order of the text. -/
theorem parts_layout (σ : Style) (casting : Bool) (sources : List Relation) {c : Clause α}
    (h : c.isCustom = false) :
    (c.layout σ casting sources).parts = c.inTextOrder σ.supportsDistinctOn := by
  cases c with
  | select s =>
      rw [layout, Layout.parts, Layout.gather_select, List.flatMap_singleton']
      rfl
  | custom => cases h
  | _ =>
      have hgather := gather_layout (fun _ => []) ([·]) σ casting sources h fun s hs => by cases hs
      rw [List.flatMap_eq_nil_iff.mpr fun _ _ => rfl, List.nil_append,
        List.flatMap_singleton'] at hgather
      exact hgather

end Clause

namespace Node

/-- The nodes that the rules come to, in the order in which they do. -/
def rendered (supportsDistinctOn : Bool) : Node → List Node :=
  fold fun n c => n :: (c.inTextOrder supportsDistinctOn).flatten

theorem rendered_mk (b : Bool) (c : Clause Node) :
    (mk c).rendered b = mk c :: (c.inTextOrder b).flatMap (rendered b) := by
  rw [rendered, fold_mk, Clause.inTextOrder_map, List.flatMap_def]

/-- The second node is the first one or comes below it, and nothing between them is left out. -/
inductive Shows (supportsDistinctOn : Bool) : Node → Node → Prop where
  | root (n : Node) : Shows supportsDistinctOn n n
  | part {c : Clause Node} {n m : Node} (hn : n ∈ (c.shown supportsDistinctOn).parts)
      (hm : Shows supportsDistinctOn n m) : Shows supportsDistinctOn (mk c) m

/-- **The rules come to what is shown.** -/
theorem mem_rendered_iff {b : Bool} {m : Node} : ∀ n : Node, m ∈ n.rendered b ↔ n.Shows b m := by
  apply induction
  intro c ih
  rw [rendered_mk, List.mem_cons, List.mem_flatMap]
  constructor
  · rintro (rfl | ⟨n, hn, hm⟩)
    · exact .root _
    · have hshown := Clause.mem_inTextOrder.mp hn
      exact .part hshown ((ih n (Clause.mem_parts_of_shown hshown)).mp hm)
  · intro h
    cases h with
    | root => exact .inl rfl
    | part hn hm =>
        exact .inr ⟨_, Clause.mem_inTextOrder.mpr hn,
          (ih _ (Clause.mem_parts_of_shown hn)).mpr hm⟩

/-- What is shown is a node of the tree. -/
theorem mem_preorder_of_shows {b : Bool} {n m : Node} (h : n.Shows b m) : m ∈ n.preorder := by
  induction h with
  | root n =>
      obtain ⟨c⟩ := n
      rw [preorder_mk]
      exact List.mem_cons_self
  | part hn _ ih =>
      rw [preorder_mk]
      exact List.mem_cons_of_mem _
        (List.mem_flatten.mpr ⟨_, List.mem_map_of_mem (Clause.mem_parts_of_shown hn), ih⟩)

/-- All nodes of the tree are of kinds that every database knows. -/
def Core (n : Node) : Prop := ∀ m ∈ n.preorder, m.clause.isCore = true

instance (n : Node) : Decidable n.Core :=
  inferInstanceAs (Decidable (∀ m ∈ n.preorder, m.clause.isCore = true))

end Node

/-! ## 3. Why there is no template -/

/-- A layout has no template for the reason of the first of its parts that has none. -/
theorem Layout.failure?_template (f : Node → Except Error Template) : ∀ l : Layout Node,
    failure? (l.map f).template = l.parts.findSome? fun n => failure? (f n)
  | [] => rfl
  | .piece (.text s) :: rest => by
      have ih := failure?_template f rest
      exact (failure?_bindPure (Piece.text s :: ·) _).trans ih
  | .piece (.value v) :: rest => by
      have ih := failure?_template f rest
      exact (failure?_bindPure (Piece.value v :: ·) _).trans ih
  | .part n :: rest => by
      have hparts : parts (.part n :: rest) = n :: parts rest := rfl
      have hmap : map f (.part n :: rest) = .part (f n) :: map f rest := rfl
      rw [hparts, List.findSome?_cons, ← failure?_template f rest, hmap, template]
      cases f n with
      | error e => rfl
      | ok t => exact failure?_bindPure (t ++ ·) _

section

variable {σ : Style}

/-- A faithful registry has a layout for every clause that it has a rule for. -/
theorem Style.layoutFor_of_some (hσ : σ.registry.Faithful) {c : Clause Node}
    (hc : c.isCustom = false) {rule : ElementRule} (hrule : σ.registry.element? c.tag = some rule)
    (sources : List Relation) :
    σ.layoutFor sources c = .ok (c.layout σ (rule == .castingBind) sources) :=
  layoutFor_of_rule hrule (hσ c hc rule hrule) sources

/-- **There is no template because of the first node that the rules come to and that the registry
leaves out.** Nodes of kinds defined elsewhere may be among them, if the registry has no rule for
their tags. -/
theorem Node.failure?_template (hσ : σ.registry.Faithful) : ∀ n : Node,
    (∀ m ∈ n.preorder, m.clause.isCustom = true → σ.registry.element? m.tag = none) →
    failure? (n.template σ) =
      ((n.rendered σ.supportsDistinctOn).find? σ.registry.leavesOut).map fun m =>
        .noRule m.tag := by
  apply induction
  intro c ih hforeign
  obtain ⟨hroot, hparts⟩ := forall_preorder_mk.mp hforeign
  rw [template_mk, rendered_mk, List.find?_cons]
  cases hrule : σ.registry.element? c.tag with
  | none =>
      have hleft : σ.registry.leavesOut (mk c) = true := by
        rw [Registry.leavesOut, tag, clause, hrule]
        rfl
      rw [hleft, Style.layoutFor, Style.ruleFor, hrule]
      rfl
  | some rule =>
      have hkept : σ.registry.leavesOut (mk c) = false := by
        rw [Registry.leavesOut, tag, clause, hrule]
        rfl
      have hcustom : c.isCustom = false := by
        cases h : c.isCustom with
        | false => rfl
        | true => cases hrule.symm.trans (hroot h)
      rw [hkept, Style.layoutFor_of_some hσ hcustom hrule]
      show failure? (Layout.template (Layout.map (template σ) (c.layout σ _ _))) = _
      rw [Layout.failure?_template, Clause.parts_layout σ _ _ hcustom, List.find?_flatMap,
        List.map_findSome?]
      -- the parts that are shown have the same reasons on both sides
      refine findSome?_congr fun n hn => ?_
      have hpart := Clause.mem_parts_of_shown (Clause.mem_inTextOrder.mp hn)
      exact ih n hpart (hparts n hpart)

/-- There is a template exactly if the registry has a rule for every node that is shown. -/
theorem Node.exists_template_iff (hσ : σ.registry.Faithful) (n : Node)
    (hforeign : ∀ m ∈ n.preorder, m.clause.isCustom = true → σ.registry.element? m.tag = none) :
    (∃ t, n.template σ = .ok t) ↔
      ∀ m, n.Shows σ.supportsDistinctOn m → σ.registry.element? m.tag ≠ none := by
  rw [← failure?_eq_none_iff, failure?_template hσ n hforeign, Option.map_eq_none_iff,
    List.find?_eq_none]
  refine forall_congr' fun m => ?_
  rw [mem_rendered_iff, Registry.leavesOut, Option.isNone_iff_eq_none]

end

/-! ## 4. When compiling fails -/

namespace Compiler

/-- A compiler fails exactly if there is no template, and for the same reason. -/
theorem failure?_compile (s : Settings) (collected : List Value) (n : Node) :
    failure? ((having s collected).compile n).1 = failure? (n.template (s.style false)) := by
  cases htemplate : n.template (s.style false) with
  | error e =>
      rw [compile_of_error s collected n htemplate]
      rfl
  | ok t =>
      rw [compile_of_template s collected n htemplate]
      rfl

/-- **Compiling fails exactly at the first node that is not covered.** With either registry and in
any dialect, a tree whose nodes of other kinds do not have the tag of a rule compiles if and only
if there is a rule for every node that is shown. If there is not, then the error names the first
node without one, in the order in which the nodes are rendered. So the registry of PostgreSQL
compiles every built-in tree, and both compile what every database knows. -/
theorem compile_fails_at_first_uncovered (d : Dialect) (r : Registry)
    (hr : r = .core ∨ r = .postgresql) (literalBinds : Bool) (collected : List Value) (n : Node)
    (hforeign : ∀ m ∈ n.iterate, m.clause.isCustom = true → r.element? m.tag = none) :
    ((∃ compiled, ((having ⟨d, r, literalBinds⟩ collected).compile n).1 = .ok compiled) ↔
      ∀ m, n.Shows d.supportsDistinctOn m → r.element? m.tag ≠ none) ∧
    (∀ e, ((having ⟨d, r, literalBinds⟩ collected).compile n).1 = .error e ↔
      ∃ m, (n.rendered d.supportsDistinctOn).find? r.leavesOut = some m ∧ e = .noRule m.tag) ∧
    (r = .postgresql → n.BuiltIn →
      ∃ compiled, ((having ⟨d, r, literalBinds⟩ collected).compile n).1 = .ok compiled) ∧
    (n.Core →
      ∃ compiled, ((having ⟨d, r, literalBinds⟩ collected).compile n).1 = .ok compiled) := by
  have hfaithful : (Settings.style ⟨d, r, literalBinds⟩ false).registry.Faithful := by
    rcases hr with rfl | rfl
    · exact Registry.faithful_core
    · exact Registry.faithful_postgresql
  rw [Node.iterate_eq_preorder] at hforeign
  have hfails := failure?_compile ⟨d, r, literalBinds⟩ collected n
  have hcovered : (∃ compiled,
      ((having ⟨d, r, literalBinds⟩ collected).compile n).1 = .ok compiled) ↔
        ∀ m, n.Shows d.supportsDistinctOn m → r.element? m.tag ≠ none := by
    rw [← failure?_eq_none_iff, hfails, failure?_eq_none_iff]
    exact Node.exists_template_iff hfaithful n hforeign
  refine ⟨hcovered, fun e => ?_, ?_, ?_⟩
  · rw [← failure?_eq_some_iff, hfails, Node.failure?_template hfaithful n hforeign,
      Option.map_eq_some_iff]
    simp only [eq_comm]
    rfl
  · rintro rfl hbuiltIn
    refine hcovered.mpr fun m hm hnone => ?_
    exact Registry.element?_postgresql_ne_none (hbuiltIn m (Node.mem_preorder_of_shows hm)) hnone
  · intro hcore
    refine hcovered.mpr fun m hm hnone => ?_
    have hc := hcore m (Node.mem_preorder_of_shows hm)
    rcases hr with rfl | rfl
    · exact Registry.element?_core_ne_none hc hnone
    · exact Registry.element?_postgresql_ne_none (Clause.isCustom_of_isCore _ hc) hnone

end Compiler

/-- A statement with clauses of kinds that are defined elsewhere, the first of them among its
columns. -/
def Node.sampled : Node :=
  ⟨.select { Select.ofColumns [column "id", ⟨.custom "window" []⟩] with
    distinctOn := [⟨.custom "frame" []⟩], preColumns := [⟨.custom "sample" []⟩] }⟩

/-- Neither error names the window, which comes first among the parts of the statement. -/
theorem Compiler.compile_sampled :
    (∀ m ∈ Node.sampled.iterate, m.clause.isCustom = true →
      Registry.postgresql.element? m.tag = none) ∧
    ((having ⟨.generic, .postgresql, false⟩ []).compile Node.sampled).1 =
      .error (.noRule "sample") ∧
    ((having ⟨.postgresql, .postgresql, false⟩ []).compile Node.sampled).1 =
      .error (.noRule "frame") := by
  have hforeign : ∀ m ∈ Node.sampled.iterate, m.clause.isCustom = true →
      Registry.postgresql.element? m.tag = none := by
    rw [Node.iterate_eq_preorder]
    decide
  obtain ⟨-, hgeneric, -⟩ := compile_fails_at_first_uncovered .generic .postgresql (.inr rfl) false
    [] Node.sampled hforeign
  obtain ⟨-, hpostgresql, -⟩ := compile_fails_at_first_uncovered .postgresql .postgresql (.inr rfl)
    false [] Node.sampled hforeign
  exact ⟨hforeign, (hgeneric _).mpr ⟨⟨.custom "sample" []⟩, rfl, rfl⟩,
    (hpostgresql _).mpr ⟨⟨.custom "frame" []⟩, rfl, rfl⟩⟩

end SqlClause
