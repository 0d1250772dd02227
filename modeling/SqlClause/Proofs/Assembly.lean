import SqlClause.Proofs.Outcome
import SqlClause.Select.Extension

/-!
# Statements built step by step

A caller builds a statement by one step after the other; when a step fails, the caller still has the
statement from before it. `DISTINCT ON` may be asked for by terms of the statement's own or by
extensions, in steps that come in any order. Whatever the order, the two never meet in one
statement, and an extension that was applied can be found again in the statement.

* `Builder.keeps_of_apply`: the builders that do not touch `DISTINCT ON`;
* `Select.addDistinctOn_eq`, `Select.extend_distinctOn`: what the two sides do, and when they
  refuse;
* `Draft.Sound`: the invariant of a statement and of the extensions applied to it;
* `Draft.sound_after`: a step keeps it;
* **`Draft.distinctOn_of_run`**: what holds of every statement that can be built.
-/

namespace SqlClause

/-! ## 1. Steps -/

/-- A step that says nothing about `DISTINCT ON`. -/
inductive Builder where
  | addColumns (columns : List Node)
  | addCriterion (n : Node)
  | addGroupBy (terms : List Argument)
  | addOrderBy (terms : List Argument)
  | setLimit (n : UInt64)
  | setOffset (n : UInt64)
  | setDistinct

def Builder.apply (s : Statement) : Builder → Except Error Statement
  | addColumns columns => .ok (s.addColumns columns)
  | addCriterion n => .ok (s.addCriterion n)
  | addGroupBy terms => s.addGroupBy terms
  | addOrderBy terms => s.addOrderBy terms
  | setLimit n => .ok (s.setLimit n)
  | setOffset n => .ok (s.setOffset n)
  | setDistinct => .ok s.setDistinct

/-- A step in building a statement. -/
inductive Step where
  /-- Begins another statement. -/
  | ofColumns (columns : List Node)
  | build (b : Builder)
  /-- `DISTINCT`, set in the statement at hand and not in a new one. -/
  | markDistinct
  | addDistinctOn (terms : List Argument)
  | extend (e : Extension)

namespace Step

/-- The statement after a step. -/
def take (s : Statement) : Step → Except Error Statement
  | ofColumns columns => .ok (Select.ofColumns columns)
  | build b => b.apply s
  | markDistinct => .ok ((modify Select.setDistinct : Edit Unit).run s).2
  | addDistinctOn terms => s.addDistinctOn terms
  | extend e => s.extend e

/-- The extensions that are in the statement after a step. -/
def record (es : List Extension) : Step → List Extension
  | ofColumns _ => []
  | extend e => es ++ [e]
  | build _ | markDistinct | addDistinctOn _ => es

end Step

/-- A statement and the extensions that were applied to it, in the order of their application. -/
structure Draft where
  statement : Statement
  extensions : List Extension

namespace Draft

/-- The draft after a step: as it was, if the step fails. -/
def after (d : Draft) (step : Step) : Draft :=
  match step.take d.statement with
  | .ok s => ⟨s, step.record d.extensions⟩
  | .error _ => d

/-- The draft after steps that follow on a statement of columns. -/
def run (columns : List Node) (steps : List Step) : Draft :=
  steps.foldl after ⟨Select.ofColumns columns, []⟩

end Draft

namespace Extension

/-- The terms of all `DISTINCT ON` extensions, one after the other. -/
def allTerms (es : List Extension) : List Node :=
  es.flatMap fun
    | distinctOn terms => terms
    | hint _ => []

/-- The clauses of all hints. -/
def allHints (es : List Extension) : List Node :=
  (es.filter fun
    | distinctOn _ => false
    | hint _ => true).map node

theorem allTerms_append (es fs : List Extension) :
    allTerms (es ++ fs) = allTerms es ++ allTerms fs :=
  List.flatMap_append

@[simp] theorem allTerms_distinctOn (terms : List Node) : allTerms [distinctOn terms] = terms :=
  List.append_nil terms

@[simp] theorem allTerms_hint (n : Node) : allTerms [hint n] = [] := rfl

theorem allHints_append (es fs : List Extension) :
    allHints (es ++ fs) = allHints es ++ allHints fs := by
  simp only [allHints, List.filter_append, List.map_append]

@[simp] theorem allHints_distinctOn (terms : List Node) : allHints [distinctOn terms] = [] := rfl

@[simp] theorem allHints_hint (n : Node) : allHints [hint n] = [⟨.hint n⟩] := rfl

@[simp] theorem distinctOnTerms?_distinctOn (terms : List Node) :
    distinctOnTerms? ⟨.distinctOn terms⟩ = some terms := rfl

@[simp] theorem mergeDistinctOn_nil (terms : List Node) :
    mergeDistinctOn terms [] = [⟨.distinctOn terms⟩] := rfl

/-- A second application adds its terms to those of the first. -/
@[simp] theorem mergeDistinctOn_distinctOn (terms others : List Node) :
    mergeDistinctOn terms [⟨.distinctOn others⟩] = [⟨.distinctOn (others ++ terms)⟩] := by
  simp [mergeDistinctOn]

end Extension

/-! ## 2. What a step does -/

namespace Select

theorem addGroupBy_eq (s : Statement) (terms : List Argument) :
    s.addGroupBy terms =
      (readTerms terms).map fun ns => { s with groupBy := s.groupBy ++ ns } := by
  unfold addGroupBy
  cases readTerms terms <;> rfl

theorem addOrderBy_eq (s : Statement) (terms : List Argument) :
    s.addOrderBy terms =
      (readTerms terms).map fun ns => { s with orderBy := s.orderBy ++ ns } := by
  unfold addOrderBy
  cases readTerms terms <;> rfl

/-- **Terms of the statement's own** are read first and then refused, if there are any and an
extension has taken over. -/
theorem addDistinctOn_eq (s : Statement) (terms : List Argument) :
    s.addDistinctOn terms = (readTerms terms).bind fun ns =>
      if s.distinctOnClaimed = true ∧ s.distinctOn ++ ns ≠ [] then .error .distinctOnConflict
      else .ok { s with distinctOn := s.distinctOn ++ ns, distinct := true } := by
  unfold addDistinctOn
  cases readTerms terms with
  | error e => rfl
  | ok ns =>
      have hconflict : hasConflict { s with distinctOn := s.distinctOn ++ ns } = true ↔
          s.distinctOnClaimed = true ∧ s.distinctOn ++ ns ≠ [] := by
        simp [hasConflict]
      by_cases h : s.distinctOnClaimed = true ∧ s.distinctOn ++ ns ≠ []
      · simp only [Except.bind, if_pos h]
        show (if hasConflict { s with distinctOn := s.distinctOn ++ ns } = true then _ else _) = _
        rw [if_pos (hconflict.mpr h)]
        rfl
      · simp only [Except.bind, if_neg h]
        show (if hasConflict { s with distinctOn := s.distinctOn ++ ns } = true then _ else _) = _
        rw [if_neg (mt hconflict.mp h)]
        rfl

theorem exists_of_addDistinctOn {s t : Statement} {terms : List Argument}
    (h : s.addDistinctOn terms = .ok t) :
    ∃ ns, (s.distinctOnClaimed = true → s.distinctOn ++ ns = []) ∧
      t = { s with distinctOn := s.distinctOn ++ ns, distinct := true } := by
  rw [addDistinctOn_eq] at h
  cases hread : readTerms terms with
  | error e => rw [hread] at h; cases h
  | ok ns =>
      simp only [hread, Except.bind] at h
      split at h
      · cases h
      · rename_i hfree
        refine ⟨ns, fun hclaimed => ?_, (Except.ok.inj h).symm⟩
        exact Classical.byContradiction fun hterms => hfree ⟨hclaimed, hterms⟩

/-- **An extension** takes over and puts all terms of extensions into one clause, if the statement
has no terms of its own. -/
theorem extend_distinctOn (s : Statement) (terms : List Node) :
    s.extend (.distinctOn terms) =
      if s.distinctOn = [] then
        .ok { s with
          distinctOnClaimed := true
          distinct := true
          preColumns := Extension.mergeDistinctOn terms s.preColumns }
      else .error .distinctOnConflict := by
  rcases s with ⟨columns, criterion, groupBy, orderBy, limit, offset, distinct, own, claimed⟩
  cases own <;> rfl

/-- A hint is put behind the hints before it. -/
theorem extend_hint (s : Statement) (n : Node) :
    s.extend (.hint n) = .ok { s with postBody := s.postBody ++ [⟨.hint n⟩] } := rfl

end Select

namespace Builder

/-- The builders leave what is said about `DISTINCT ON`, and the extensions, as they are, and
`DISTINCT` once it is set. -/
structure Keeps (s t : Statement) : Prop where
  distinctOn : t.distinctOn = s.distinctOn
  distinctOnClaimed : t.distinctOnClaimed = s.distinctOnClaimed
  preColumns : t.preColumns = s.preColumns
  postCriteria : t.postCriteria = s.postCriteria
  postBody : t.postBody = s.postBody
  distinct : s.distinct = true → t.distinct = true

theorem keeps_of_apply {b : Builder} {s t : Statement} (h : b.apply s = .ok t) : Keeps s t := by
  cases b with
  | addGroupBy terms | addOrderBy terms =>
      simp only [apply, Select.addGroupBy_eq, Select.addOrderBy_eq] at h
      obtain ⟨ns, -, rfl⟩ := exists_of_map_eq_ok h
      exact ⟨rfl, rfl, rfl, rfl, rfl, id⟩
  | setDistinct =>
      obtain rfl := Except.ok.inj h
      exact ⟨rfl, rfl, rfl, rfl, rfl, fun _ => rfl⟩
  | _ =>
      obtain rfl := Except.ok.inj h
      exact ⟨rfl, rfl, rfl, rfl, rfl, id⟩

end Builder

/-! ## 3. The invariant -/

namespace Draft

/-- The statement shows the extensions that were applied to it, and `DISTINCT ON` is asked for from
one side at most. -/
structure Sound (d : Draft) : Prop where
  oneSided : d.statement.distinctOnClaimed = true → d.statement.distinctOn = []
  distinct : d.statement.distinctOnClaimed = true ∨ d.statement.distinctOn ≠ [] →
    d.statement.distinct = true
  preColumns : d.statement.preColumns =
    if d.statement.distinctOnClaimed then [⟨.distinctOn (Extension.allTerms d.extensions)⟩] else []
  /-- No terms are lost: where nothing has taken over, there are none. -/
  unclaimed : d.statement.distinctOnClaimed = false → Extension.allTerms d.extensions = []
  postCriteria : d.statement.postCriteria = []
  postBody : d.statement.postBody = Extension.allHints d.extensions

theorem sound_ofColumns (columns : List Node) : Sound ⟨Select.ofColumns columns, []⟩ where
  oneSided := fun h => nomatch h
  distinct := fun h => h.elim (fun h => nomatch h) (fun h => absurd rfl h)
  preColumns := rfl
  unclaimed := fun _ => rfl
  postCriteria := rfl
  postBody := rfl

variable {s t : Statement} {es : List Extension}

/-- What a builder keeps is all that the invariant is about. -/
theorem Sound.of_keeps (h : Sound ⟨s, es⟩) (hkeeps : Builder.Keeps s t) : Sound ⟨t, es⟩ where
  oneSided := by
    rw [hkeeps.distinctOnClaimed, hkeeps.distinctOn]
    exact h.oneSided
  distinct := by
    rw [hkeeps.distinctOnClaimed, hkeeps.distinctOn]
    exact fun hasked => hkeeps.distinct (h.distinct hasked)
  preColumns := by
    rw [hkeeps.distinctOnClaimed, hkeeps.preColumns]
    exact h.preColumns
  unclaimed := by
    rw [hkeeps.distinctOnClaimed]
    exact h.unclaimed
  postCriteria := hkeeps.postCriteria.trans h.postCriteria
  postBody := hkeeps.postBody.trans h.postBody

theorem Sound.addDistinctOn {terms : List Argument} (h : Sound ⟨s, es⟩)
    (ht : s.addDistinctOn terms = .ok t) : Sound ⟨t, es⟩ := by
  obtain ⟨ns, hfree, rfl⟩ := Select.exists_of_addDistinctOn ht
  exact {
    oneSided := hfree
    distinct := fun _ => rfl
    preColumns := h.preColumns
    unclaimed := h.unclaimed
    postCriteria := h.postCriteria
    postBody := h.postBody }

/-- The clause before the columns has the terms of the extensions before, or there were none: in
both cases the terms of the next extension go to the end of all terms. -/
theorem Sound.mergeDistinctOn (h : Sound ⟨s, es⟩) (terms : List Node) :
    Extension.mergeDistinctOn terms s.preColumns =
      [⟨.distinctOn (Extension.allTerms (es ++ [.distinctOn terms]))⟩] := by
  have hpre : s.preColumns =
      if s.distinctOnClaimed then [⟨.distinctOn (Extension.allTerms es)⟩] else [] := h.preColumns
  rw [hpre, Extension.allTerms_append, Extension.allTerms_distinctOn]
  cases hclaimed : s.distinctOnClaimed with
  | true => exact Extension.mergeDistinctOn_distinctOn ..
  | false =>
      have hnone : Extension.allTerms es = [] := h.unclaimed hclaimed
      rw [hnone]
      exact Extension.mergeDistinctOn_nil terms

theorem Sound.extend {e : Extension} (h : Sound ⟨s, es⟩) (ht : s.extend e = .ok t) :
    Sound ⟨t, es ++ [e]⟩ := by
  cases e with
  | distinctOn terms =>
      rw [Select.extend_distinctOn] at ht
      split at ht
      · rename_i hown
        obtain rfl := Except.ok.inj ht
        exact {
          oneSided := fun _ => hown
          distinct := fun _ => rfl
          preColumns := h.mergeDistinctOn terms
          unclaimed := fun hclaimed => nomatch hclaimed
          postCriteria := h.postCriteria
          postBody := by
            rw [Extension.allHints_append, Extension.allHints_distinctOn, List.append_nil]
            exact h.postBody }
      · cases ht
  | hint n =>
      rw [Select.extend_hint] at ht
      obtain rfl := Except.ok.inj ht
      have hterms : Extension.allTerms (es ++ [.hint n]) = Extension.allTerms es := by
        rw [Extension.allTerms_append, Extension.allTerms_hint, List.append_nil]
      exact {
        oneSided := h.oneSided
        distinct := h.distinct
        preColumns := by
          rw [hterms]
          exact h.preColumns
        unclaimed := by
          rw [hterms]
          exact h.unclaimed
        postCriteria := h.postCriteria
        postBody := by
          rw [Extension.allHints_append, Extension.allHints_hint]
          exact congrArg (· ++ _) h.postBody }

/-- **A step keeps the invariant**, whether it fails or not. -/
theorem sound_after {d : Draft} (h : d.Sound) (step : Step) : (d.after step).Sound := by
  rcases d with ⟨s, es⟩
  unfold after
  cases ht : step.take s with
  | error e => exact h
  | ok t =>
      cases step with
      | ofColumns columns =>
          obtain rfl := Except.ok.inj ht
          exact sound_ofColumns columns
      | build b => exact h.of_keeps (Builder.keeps_of_apply ht)
      | markDistinct =>
          obtain rfl := Except.ok.inj ht
          exact h.of_keeps (Builder.keeps_of_apply (b := .setDistinct) rfl)
      | addDistinctOn terms => exact h.addDistinctOn ht
      | extend e => exact h.extend ht

/-- The invariant holds after any steps. -/
theorem sound_run (columns : List Node) (steps : List Step) : (run columns steps).Sound :=
  List.foldlRecOn steps after (sound_ofColumns columns) fun _ h step _ => sound_after h step

/-- **What holds of every statement that can be built.** `DISTINCT ON` is never asked for by an
extension and by terms of the statement's own. An extension has taken over exactly when there is a
clause before the columns, and then it is the one clause there, with the terms of all `DISTINCT ON`
extensions in the order of their application; where none has taken over, none has brought terms, so
an extension with terms that does not fail takes over. Either way the statement is `DISTINCT`. The
applied hints stand at the end in their order, and nothing stands behind the criterion. -/
theorem distinctOn_of_run (columns : List Node) (steps : List Step) :
    let s := (run columns steps).statement
    let applied := (run columns steps).extensions
    ¬ (s.distinctOnClaimed = true ∧ s.distinctOn ≠ []) ∧
    (s.distinctOnClaimed = true ↔ s.extensionPoint .preColumns ≠ []) ∧
    (s.distinctOnClaimed = true →
      s.extensionPoint .preColumns = [⟨.distinctOn (Extension.allTerms applied)⟩]) ∧
    (s.distinctOnClaimed = false → Extension.allTerms applied = []) ∧
    (s.distinctOnClaimed = true ∨ s.distinctOn ≠ [] → s.distinct = true) ∧
    s.extensionPoint .postBody = Extension.allHints applied ∧
    s.extensionPoint .postCriteria = [] := by
  intro s applied
  have h : Sound ⟨s, applied⟩ := sound_run columns steps
  have hpre : s.preColumns =
      if s.distinctOnClaimed then [⟨.distinctOn (Extension.allTerms applied)⟩] else [] :=
    h.preColumns
  refine ⟨fun hboth => hboth.2 (h.oneSided hboth.1), ?_, fun hclaimed => ?_, h.unclaimed,
    h.distinct, h.postBody, h.postCriteria⟩
  · rw [Select.extensionPoint, hpre]
    cases s.distinctOnClaimed <;> simp
  · rw [Select.extensionPoint, hpre, if_pos hclaimed]

/-- Terms of the statement's own are refused between two extensions, and nothing is left of them. -/
example (a b c : Node) :
    (run [] [.extend (.distinctOn [a]), .addDistinctOn [.value (.text "t")], .extend (.hint b),
      .extend (.distinctOn [c])]).statement =
      { (∅ : Statement) with
        distinct := true
        distinctOnClaimed := true
        preColumns := [⟨.distinctOn [a, c]⟩]
        postBody := [⟨.hint b⟩] } := rfl

end Draft

end SqlClause
