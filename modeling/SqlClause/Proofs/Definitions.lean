import Mathlib.Data.List.Forall2
import SqlClause.Proofs.Template

/-!
# Renderings without a trace

In a definition values are written into the text, so a definition binds nothing: it is rendered in
the same way whatever has been rendered before, and whether it can be rendered or not, everything is
afterwards as it was. `RenderM.SameIn` says this of two renderings at once, that they come to the
same; a rendering compared with itself is one that leaves no trace.

* `RenderM.SameIn.bind`, `RenderM.SameIn.mapM`: one rendering after the other;
* `RenderM.SameIn.asDefinition`: what is the same in definitions is the same as a definition;
* `Node.sameIn_render`: trees with one template are rendered alike in definitions;
* **`Constraint.traceless_render`**, **`Table.traceless_render`**: definitions leave no trace.
-/

namespace SqlClause

namespace RenderM

variable {α β γ : Type}

/-! ## 1. Two renderings that come to the same -/

/-- Wherever `P` holds of the progress, the two renderings have one outcome, which does not depend
on the progress, and leave the progress as it is. -/
def SameIn (P : Progress → Prop) (s : Settings) (x y : RenderM α) : Prop :=
  ∃ outcome, ∀ p, P p → x s p = (outcome, p) ∧ y s p = (outcome, p)

/-- The rendering leaves no trace. -/
abbrev Traceless (P : Progress → Prop) (s : Settings) (x : RenderM α) : Prop := SameIn P s x x

/-- A definition is being rendered. -/
def InDefinition (p : Progress) : Prop := p.inDdl = true

/-- Whatever is being rendered. -/
def Anywhere (_ : Progress) : Prop := True

namespace SameIn

variable {P : Progress → Prop} {s : Settings}

theorem pure (a : α) : Traceless P s (pure a) := ⟨.ok a, fun _ _ => ⟨rfl, rfl⟩⟩

theorem throw (e : Error) : Traceless (α := α) P s (throw e) :=
  ⟨.error e, fun _ _ => ⟨rfl, rfl⟩⟩

theorem read : Traceless P s (read : RenderM Settings) := ⟨.ok s, fun _ _ => ⟨rfl, rfl⟩⟩

/-- Renderings that go on in the same way from the same come to the same. -/
theorem bind {x y : RenderM α} {f g : α → RenderM β} (hxy : SameIn P s x y)
    (hfg : ∀ a, SameIn P s (f a) (g a)) : SameIn P s (x >>= f) (y >>= g) := by
  obtain ⟨outcome, h⟩ := hxy
  cases outcome with
  | error e =>
      refine ⟨.error e, fun p hp => ?_⟩
      obtain ⟨hx, hy⟩ := h p hp
      exact ⟨by rw [bind_apply, hx], by rw [bind_apply, hy]⟩
  | ok a =>
      obtain ⟨later, hlater⟩ := hfg a
      refine ⟨later, fun p hp => ?_⟩
      obtain ⟨hx, hy⟩ := h p hp
      obtain ⟨hf, hg⟩ := hlater p hp
      exact ⟨by rw [bind_apply, hx]; exact hf, by rw [bind_apply, hy]; exact hg⟩

/-- Lists whose items are rendered alike, one by one, are rendered alike. -/
theorem mapM {f : α → RenderM γ} {g : β → RenderM γ} {as : List α} {bs : List β}
    (h : List.Forall₂ (fun a b => SameIn P s (f a) (g b)) as bs) :
    SameIn P s (as.mapM f) (bs.mapM g) := by
  induction h with
  | nil => exact pure []
  | cons hab _ ih =>
      rw [List.mapM_cons, List.mapM_cons]
      exact hab.bind fun c => ih.bind fun cs => pure (c :: cs)

theorem joined {f : α → RenderM String} {g : β → RenderM String} {as : List α} {bs : List β}
    (separator : String) (h : List.Forall₂ (fun a b => SameIn P s (f a) (g b)) as bs) :
    SameIn P s (joined separator (as.map f)) (joined separator (bs.map g)) := by
  unfold RenderM.joined
  rw [List.mapM_map, List.mapM_map]
  exact (mapM h).bind fun texts => pure (separator.intercalate texts)

/-- What comes to the same in definitions comes to the same as a definition. -/
theorem asDefinition {x y : RenderM α} (h : SameIn InDefinition s x y) :
    SameIn Anywhere s (asDefinition x) (asDefinition y) := by
  obtain ⟨outcome, h⟩ := h
  refine ⟨outcome, fun p _ => ?_⟩
  obtain ⟨hx, hy⟩ := h { p with inDdl := true } rfl
  constructor
  · unfold RenderM.asDefinition
    rw [hx]
  · unfold RenderM.asDefinition
    rw [hy]

theorem quote (name : String) : Traceless P s (quote name) := read.bind fun _ => pure _

theorem relation (r : Relation) : Traceless P s (relation r) := by
  refine read.bind fun _ => ?_
  cases r.schema <;> exact pure _

end SameIn

end RenderM

open RenderM

variable {P : Progress → Prop} {s : Settings}

/-! ## 2. Trees -/

/-- **Trees with one template are rendered alike in definitions.** Their values are written into the
text, so that nothing is recorded. -/
theorem Node.sameIn_render {n m : Node}
    (h : n.template (s.style true) = m.template (s.style true)) :
    SameIn InDefinition s n.render m.render := by
  have hinline : (s.literalBinds || true) = true := Bool.or_true _
  have hn := n.realizes_template s true
  have hm := m.realizes_template s true
  rw [← h] at hm
  cases htemplate : n.template (s.style true) with
  | error e =>
      rw [htemplate] at hn hm
      refine ⟨.error e, fun p hp => ?_⟩
      obtain ⟨vs, hx⟩ := hn p hp
      obtain ⟨ws, hy⟩ := hm p hp
      rw [hinline] at hx hy
      exact ⟨hx, hy⟩
  | ok t =>
      rw [htemplate] at hn hm
      refine ⟨.ok (t.fill (s.filling true) 0), fun p hp => ?_⟩
      have hfill : t.fill (s.filling true) p.params.length = t.fill (s.filling true) 0 :=
        Template.fill_const Value.inline t p.params.length 0
      have hx := hn p hp
      have hy := hm p hp
      rw [hinline, hfill] at hx hy
      exact ⟨hx, hy⟩

/-! ## 3. Constraints -/

namespace RenderM

theorem traceless_constraintName (name : Option String) : Traceless P s (constraintName name) := by
  cases name with
  | none => exact SameIn.pure ""
  | some name => exact (SameIn.quote name).bind fun _ => SameIn.pure _

theorem traceless_columnDefinition (c : Column) : Traceless P s (columnDefinition c) :=
  (SameIn.quote c.name).bind fun _ => SameIn.pure _

/-- Conditions of one name are rendered alike if their expressions are. -/
theorem sameIn_check {c d : CheckConstraint} (hname : c.name = d.name)
    (hcondition : SameIn P s c.condition.render d.condition.render) :
    SameIn P s (check c) (check d) := by
  unfold check
  rw [hname]
  exact (traceless_constraintName d.name).bind fun _ => hcondition.bind fun _ => SameIn.pure _

/-- Exclusions that agree in all that is no expression are rendered alike if their expressions
are. -/
theorem sameIn_exclude {c d : ExcludeConstraint} (hname : c.name = d.name)
    (hmethod : c.method = d.method) (hdeferrable : c.deferrable = d.deferrable)
    (hinitially : c.initially = d.initially)
    (helements : List.Forall₂
      (fun e f => SameIn P s (excludeElement c.classes e) (excludeElement d.classes f))
      c.elements d.elements)
    (hcriterion : SameIn P s (excludeCriterion c.criterion) (excludeCriterion d.criterion)) :
    SameIn P s (exclude c) (exclude d) := by
  unfold exclude
  rw [hname, hmethod, hdeferrable, hinitially]
  refine (SameIn.joined ", " helements).bind fun _ => ?_
  exact (traceless_constraintName d.name).bind fun _ => hcriterion.bind fun _ => SameIn.pure _

/-- An expression in an exclusion is rendered like another one if their trees are, and if they look
alike from outside: in their parentheses and in their operator class. -/
theorem sameIn_excludeElement {classes : NameMap String} {e f : ExcludeElement} {n m : Node}
    (he : e.expression = .resolved n) (hf : f.expression = .resolved m)
    (hoperator : e.operator = f.operator) (hrender : SameIn P s n.render m.render)
    (henclosed : ∀ text, enclosed n text = enclosed m text)
    (hclass : operatorClass? classes n = operatorClass? classes m) :
    SameIn P s (excludeElement classes e) (excludeElement classes f) := by
  have hexpression : SameIn P s (excludeExpression classes e.expression)
      (excludeExpression classes f.expression) := by
    rw [he, hf]
    refine hrender.bind fun text => ?_
    rw [henclosed, hclass]
    exact SameIn.pure _
  unfold excludeElement
  rw [hoperator]
  exact hexpression.bind fun _ => SameIn.pure _

theorem sameIn_excludeCriterion {n m : Option Node}
    (h : Option.Rel (fun n m => SameIn P s n.render m.render) n m) :
    SameIn P s (excludeCriterion n) (excludeCriterion m) := by
  cases h with
  | none => exact SameIn.pure ""
  | some h => exact SameIn.bind h fun _ => SameIn.pure _

theorem traceless_excludeElement (classes : NameMap String) (e : ExcludeElement) :
    Traceless InDefinition s (excludeElement classes e) := by
  cases he : e.expression with
  | pending name =>
      unfold excludeElement
      rw [he]
      exact SameIn.bind (SameIn.quote name) fun _ => SameIn.pure _
  | resolved n => exact sameIn_excludeElement he he rfl (Node.sameIn_render rfl) (fun _ => rfl) rfl

theorem traceless_excludeCriterion (criterion : Option Node) :
    Traceless InDefinition s (excludeCriterion criterion) := by
  cases criterion with
  | none => exact SameIn.pure ""
  | some n => exact SameIn.bind (Node.sameIn_render rfl) fun _ => SameIn.pure _

theorem traceless_exclude (c : ExcludeConstraint) : Traceless InDefinition s (exclude c) :=
  sameIn_exclude rfl rfl rfl rfl
    (List.forall₂_same.mpr fun e _ => traceless_excludeElement c.classes e)
    (traceless_excludeCriterion c.criterion)

end RenderM

namespace Constraint

/-- Constraints of one kind are rendered alike if every rule makes the same of them. -/
theorem sameIn_render {c d : Constraint} (htag : c.tag = d.tag)
    (h : ∀ rule : ConstraintRule, SameIn InDefinition s (rule.apply c) (rule.apply d)) :
    SameIn Anywhere s c.render d.render := by
  have hrule : Traceless Anywhere s (constraintRule d.tag) := by
    refine SameIn.read.bind fun settings => ?_
    cases settings.registry.constraint? d.tag with
    | none => exact SameIn.throw _
    | some rule => exact SameIn.pure rule
  unfold render
  rw [htag]
  exact hrule.bind fun rule => (h rule).asDefinition

/-- A condition is rendered like another one by every rule if the two are alike. -/
theorem sameIn_apply_check {c d : CheckConstraint}
    (h : SameIn InDefinition s (RenderM.check c) (RenderM.check d)) (rule : ConstraintRule) :
    SameIn InDefinition s (rule.apply (check c)) (rule.apply (check d)) := by
  cases rule with
  | check => exact h
  | exclude => exact SameIn.throw _

theorem sameIn_apply_exclude {c d : ExcludeConstraint}
    (h : SameIn InDefinition s (RenderM.exclude c) (RenderM.exclude d)) (rule : ConstraintRule) :
    SameIn InDefinition s (rule.apply (exclude c)) (rule.apply (exclude d)) := by
  cases rule with
  | check => exact SameIn.throw _
  | exclude => exact h

/-- **A constraint leaves no trace**, and its text does not depend on what was rendered before. -/
theorem traceless_render (c : Constraint) : Traceless Anywhere s c.render := by
  cases c with
  | check c =>
      have hcheck := sameIn_check (c := c) (s := s) rfl (Node.sameIn_render rfl)
      exact sameIn_render rfl (sameIn_apply_check hcheck)
  | exclude c => exact sameIn_render rfl (sameIn_apply_exclude (traceless_exclude c))

end Constraint

/-! ## 4. Tables -/

namespace Table

/-- The definition of a table after the table's name. -/
def renderBody (t : Table) : RenderM String := do
  let columns ← t.columns.mapM columnDefinition
  let constraints ← t.constraints.mapM Constraint.render
  return " (\n" ++ ",\n".intercalate ((columns ++ constraints).map ("    " ++ ·)) ++ "\n)"

theorem render_eq (t : Table) :
    t.render = do
      return "CREATE TABLE " ++ (← RenderM.relation t.relation) ++ (← t.renderBody) := by
  unfold render renderBody
  simp only [bind_assoc, pure_bind, String.append_assoc]

/-- Tables are defined alike, apart from their names, if their columns and their constraints are,
one by one. -/
theorem sameIn_renderBody {t u : Table}
    (hcolumns : List.Forall₂
      (fun c d => SameIn P s (columnDefinition c) (columnDefinition d)) t.columns u.columns)
    (hconstraints : List.Forall₂
      (fun c d => SameIn P s (Constraint.render c) (Constraint.render d))
      t.constraints u.constraints) :
    SameIn P s t.renderBody u.renderBody :=
  (SameIn.mapM hcolumns).bind fun _ => (SameIn.mapM hconstraints).bind fun _ => SameIn.pure _

/-- **A definition leaves no trace**, and its text does not depend on what was rendered before. -/
theorem traceless_render (t : Table) : Traceless Anywhere s t.render := by
  have hbody : Traceless Anywhere s t.renderBody :=
    sameIn_renderBody
      (List.forall₂_same.mpr fun c _ => traceless_columnDefinition c)
      (List.forall₂_same.mpr fun c _ => c.traceless_render)
  rw [render_eq]
  exact (SameIn.relation t.relation).bind fun _ => hbody.bind fun _ => SameIn.pure _

end Table

end SqlClause
