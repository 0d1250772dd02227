import SqlClause.Proofs.Assembly
import SqlClause.Proofs.KeyReading

/-!
# Operations that fail

An operation on a statement that a caller holds works on a copy, which takes the place of the
statement if nothing fails, or on the statement itself. The former leave nothing behind when they
fail. Of the latter only those can fail that claim `DISTINCT ON` in a statement with terms of its
own, and these leave the claim: the statement is another one afterwards, by its key and by what it
does next, unless it was claimed before.

* `Operation.eq_or_claimed_of_error`: what is left of an operation that has failed;
* `Select.cacheKey_withClaim`: a claim is seen in the key;
* `Select.addDistinctOn_withClaim`: a claim in a statement with terms refuses all further terms;
* **`Operation.unchanged_iff_of_error`**: which failures leave a statement as it was.
-/

namespace SqlClause

/-! ## 1. Operations -/

/-- A new statement is made, and takes the place of the old one if this does not fail. -/
def onCopy (f : Statement → Except Error Statement) : Edit Unit := ExceptT.mk fun s =>
  match f s with
  | .ok t => (.ok (), t)
  | .error e => (.error e, s)

/-- A copy of the statement with a change made in it. -/
def Select.extendBy (s : Statement) (change : Edit Unit) : Except Error Statement :=
  match change.run s with
  | (.ok (), t) => .ok t
  | (.error e, _) => .error e

example (s : Statement) (e : Extension) : s.extend e = s.extendBy e.apply := rfl

section OnCopy

variable {f : Statement → Except Error Statement} {s t : Statement} {e : Error}

theorem run_onCopy_of_ok (h : f s = .ok t) : (onCopy f).run s = (.ok (), t) := by
  unfold onCopy
  rw [ExceptT.run_mk, h]

theorem run_onCopy_of_error (h : f s = .error e) : (onCopy f).run s = (.error e, s) := by
  unfold onCopy
  rw [ExceptT.run_mk, h]

/-- What fails on a copy leaves nothing behind. -/
theorem eq_of_onCopy_error (h : (onCopy f).run s = (.error e, t)) : t = s := by
  cases hf : f s with
  | ok u =>
      rw [run_onCopy_of_ok hf] at h
      cases h
  | error e' =>
      rw [run_onCopy_of_error hf] at h
      exact (Prod.mk.inj h).2.symm

end OnCopy

/-- An operation on a statement that the caller holds. -/
inductive Operation where
  /-- A step in building, which makes another statement. -/
  | step (step : Step)
  /-- An extension of whatever kind, applied to a copy of the statement. -/
  | extendBy (change : Edit Unit)
  /-- An extension of this library, applied to the statement itself. -/
  | apply (e : Extension)
  /-- `DISTINCT ON`, claimed for an extension in the statement itself. -/
  | claim
  /-- Other clauses at an extension point of the statement itself. -/
  | merge (point : ExtensionPoint) (f : List Node → List Node)

namespace Operation

def run : Operation → Edit Unit
  | step st => onCopy st.take
  | extendBy change => onCopy fun s => s.extendBy change
  | apply e => e.apply
  | claim => Select.claimDistinctOn
  | merge point f => modify fun s => s.setExtensionPoint point (f (s.extensionPoint point))

/-- The operation claims `DISTINCT ON` in the statement itself. -/
def claimsInPlace : Operation → Bool
  | claim | apply (.distinctOn _) => true
  | step _ | extendBy _ | apply (.hint _) | merge .. => false

/-- What operations come to, one after the other, and the statement after them. -/
def outcomes (ops : List Operation) : StateM Statement (List (Except Error Unit)) :=
  ops.mapM fun op => op.run.run

end Operation

/-! ## 2. What a failure leaves -/

namespace Select

/-- The statement with `DISTINCT ON` claimed or not. -/
def withClaim {α : Type} (s : Select α) (claimed : Bool) : Select α :=
  { s with distinctOnClaimed := claimed }

/-- A claim fails in a statement that has terms of its own, and stays. -/
theorem claimDistinctOn_run (s : Statement) :
    claimDistinctOn.run s =
      (if s.distinctOn = [] then .ok () else .error .distinctOnConflict, s.withClaim true) := by
  rcases s with ⟨columns, criterion, groupBy, orderBy, limit, offset, distinct, own, claimed⟩
  cases own <;> rfl

end Select

namespace Extension

theorem apply_distinctOn_run (s : Statement) (terms : List Node) :
    (distinctOn terms).apply.run s =
      if s.distinctOn = [] then
        (.ok (), { s with
          distinctOnClaimed := true
          distinct := true
          preColumns := mergeDistinctOn terms s.preColumns })
      else (.error .distinctOnConflict, s.withClaim true) := by
  rcases s with ⟨columns, criterion, groupBy, orderBy, limit, offset, distinct, own, claimed⟩
  cases own <;> rfl

end Extension

namespace Operation

variable {op : Operation} {s t : Statement} {e : Error}

/-- **What is left of an operation that has failed** is nothing, or a claim. -/
theorem eq_or_claimed_of_error (h : op.run.run s = (.error e, t)) :
    (op.claimsInPlace = false ∧ t = s) ∨
      (op.claimsInPlace = true ∧ e = .distinctOnConflict ∧ s.distinctOn ≠ [] ∧
        t = s.withClaim true) := by
  cases op with
  | step st => exact .inl ⟨rfl, eq_of_onCopy_error h⟩
  | extendBy change => exact .inl ⟨rfl, eq_of_onCopy_error h⟩
  | apply ex =>
      cases ex with
      | hint n => cases h
      | distinctOn terms =>
          have happly := (Extension.apply_distinctOn_run s terms).symm.trans h
          by_cases hown : s.distinctOn = []
          · rw [if_pos hown] at happly
            cases happly
          · rw [if_neg hown] at happly
            obtain ⟨he, ht⟩ := Prod.mk.inj happly
            exact .inr ⟨rfl, (Except.error.inj he).symm, hown, ht.symm⟩
  | claim =>
      obtain ⟨he, ht⟩ := Prod.mk.inj ((Select.claimDistinctOn_run s).symm.trans h)
      by_cases hown : s.distinctOn = []
      · rw [if_pos hown] at he
        cases he
      · rw [if_neg hown] at he
        exact .inr ⟨rfl, (Except.error.inj he).symm, hown, ht.symm⟩
  | merge point f => cases h

end Operation

/-! ## 3. What a claim changes -/

namespace Select

variable {s : Statement}

theorem withClaim_eq_self_iff : s.withClaim true = s ↔ s.distinctOnClaimed = true := by
  constructor
  · intro h
    rw [← h]
    rfl
  · intro h
    rw [withClaim, ← h]

/-- The text of a key around the one digit that tells whether there is a claim. -/
theorem exists_cacheKey_withClaim (s : Statement) : ∃ before after : List Char,
    ∀ claimed : Bool, (Node.select (s.withClaim claimed)).cacheKey.toList =
      before ++ (if claimed then '1' else '0') :: after := by
  let attributes := (Clause.select s).attributes
  refine ⟨'(' :: ("select".toList ++ ((attributes.take 8).flatMap fieldText ++
    ' ' :: ("distinct_on_claimed".toList ++ ['=']))),
    (attributes.drop 9).flatMap fieldText ++ [')'], fun claimed => ?_⟩
  have hattributes : (Clause.select (s.withClaim claimed)).attributes =
      attributes.take 8 ++ ("distinct_on_claimed", .boolean claimed) :: attributes.drop 9 := rfl
  have hflag : (Attribute.key (.boolean claimed)).toList = [if claimed then '1' else '0'] := by
    cases claimed <;> rfl
  rw [Node.select, Node.toList_cacheKey_mk, hattributes, List.flatMap_append, List.flatMap_cons,
    fieldText, Attribute.map, hflag]
  simp only [Clause.tag, List.append_assoc, List.cons_append, List.nil_append]

/-- **A claim is seen in the key.** -/
theorem cacheKey_withClaim :
    (Node.select (s.withClaim true)).cacheKey = (Node.select s).cacheKey ↔
      s.distinctOnClaimed = true := by
  refine ⟨fun h => ?_, fun h => by rw [withClaim_eq_self_iff.mpr h]⟩
  obtain ⟨before, after, hkey⟩ := exists_cacheKey_withClaim s
  have hself : s.withClaim s.distinctOnClaimed = s := rfl
  have hdigit := (hkey true).symm.trans
    ((congrArg String.toList h).trans (hself ▸ hkey s.distinctOnClaimed))
  cases hclaimed : s.distinctOnClaimed with
  | true => rfl
  | false =>
      rw [hclaimed] at hdigit
      cases (List.cons.inj (List.append_cancel_left hdigit)).1

/-- **A claim in a statement with terms of its own refuses all further terms**, those that can be
read too. -/
theorem addDistinctOn_withClaim (h : s.distinctOn ≠ []) (terms : List Argument) :
    (s.withClaim true).addDistinctOn terms =
      (readTerms terms).bind fun _ => .error .distinctOnConflict := by
  rw [addDistinctOn_eq]
  refine congrArg (Except.bind _) (funext fun ns => if_pos ⟨rfl, ?_⟩)
  exact List.append_ne_nil_of_left_ne_nil h ns

end Select

/-! ## 4. Which failures leave a statement as it was -/

namespace Operation

variable {op : Operation} {s t : Statement} {e : Error}

/-- The operation works on a copy, or what it claims is claimed already. -/
def Spares (op : Operation) (s : Statement) : Prop :=
  op.claimsInPlace = false ∨ s.distinctOnClaimed = true

theorem eq_of_spares (h : op.run.run s = (.error e, t)) (hspares : op.Spares s) : t = s := by
  rcases eq_or_claimed_of_error h with ⟨-, ht⟩ | ⟨hclaims, -, -, rfl⟩
  · exact ht
  · rcases hspares with hcopy | hclaimed
    · rw [hclaims] at hcopy
      cases hcopy
    · exact Select.withClaim_eq_self_iff.mpr hclaimed

theorem claimed_of_not_spares (h : op.run.run s = (.error e, t)) (hspares : ¬ op.Spares s) :
    s.distinctOnClaimed = false ∧ e = .distinctOnConflict ∧ s.distinctOn ≠ [] ∧
      t = s.withClaim true := by
  rw [Spares, not_or, Bool.not_eq_true] at hspares
  rcases eq_or_claimed_of_error h with ⟨hcopy, -⟩ | ⟨-, herror, hown, ht⟩
  · exact absurd hcopy hspares.1
  · exact ⟨hspares.2, herror, hown, ht⟩

/-- Terms of the statement's own, even none at all, tell a claim that was left from none. -/
theorem outcomes_withClaim_ne (hown : s.distinctOn ≠ []) (hclaimed : s.distinctOnClaimed = false) :
    outcomes [step (.addDistinctOn [])] (s.withClaim true) ≠
      outcomes [step (.addDistinctOn [])] s := by
  have htaken : s.addDistinctOn [] = .ok { s with
      distinctOn := s.distinctOn ++ [], distinct := true } := by
    rw [Select.addDistinctOn_eq]
    exact if_neg fun hconflict => by rw [hclaimed] at hconflict; cases hconflict.1
  have hrefused : (s.withClaim true).addDistinctOn [] = .error .distinctOnConflict :=
    Select.addDistinctOn_withClaim hown []
  intro hsame
  have hresults : ((onCopy (·.addDistinctOn [])).run (s.withClaim true)).1 =
      ((onCopy (·.addDistinctOn [])).run s).1 :=
    List.singleton_inj.mp (congrArg Prod.fst hsame)
  rw [run_onCopy_of_error hrefused, run_onCopy_of_ok htaken] at hresults
  cases hresults

/-- **Which failures leave a statement as it was.** Of any operation on any statement, when it has
failed, there is nothing left if it worked on a copy, or if what it claims in the statement itself
was claimed already; and then, as long as no value is a NaN, the statement agrees with what it was.
Otherwise the claim is left in a statement with terms of its own: its key is another one, it tells
that it is claimed, operations come to something else later, and further terms are all refused. -/
theorem unchanged_iff_of_error (h : op.run.run s = (.error e, t)) :
    (t = s ↔ op.Spares s) ∧
    ((Node.select t).cacheKey = (Node.select s).cacheKey ↔ op.Spares s) ∧
    (t.distinctOnClaimed = s.distinctOnClaimed ↔ op.Spares s) ∧
    ((∀ v ∈ (Node.select s).values, v.isNaN = false) →
      ((Node.select s).agrees (Node.select t) = true ↔ op.Spares s)) ∧
    ((∀ later, outcomes later t = outcomes later s) ↔ op.Spares s) ∧
    (¬ op.Spares s → e = .distinctOnConflict ∧ s.distinctOn ≠ [] ∧ t = s.withClaim true ∧
      ∀ terms, t.addDistinctOn terms =
        (Select.readTerms terms).bind fun _ => .error .distinctOnConflict) := by
  have heither : ∀ {P : Prop}, (t = s → P) →
      (s.distinctOnClaimed = false → s.distinctOn ≠ [] → t = s.withClaim true → ¬ P) →
      (P ↔ op.Spares s) := by
    intro P hsame hother
    constructor
    · intro hP
      by_contra hspares
      obtain ⟨hclaimed, -, hown, ht⟩ := claimed_of_not_spares h hspares
      exact hother hclaimed hown ht hP
    · exact fun hspares => hsame (eq_of_spares h hspares)
  have hkey : s.distinctOnClaimed = false → t = s.withClaim true →
      (Node.select t).cacheKey ≠ (Node.select s).cacheKey := by
    rintro hclaimed rfl hsame
    rw [Select.cacheKey_withClaim.mp hsame] at hclaimed
    cases hclaimed
  refine ⟨heither id ?_, heither ?_ ?_, heither ?_ ?_, fun hvalues => heither ?_ ?_,
    heither ?_ ?_, fun hspares => ?_⟩
  · exact fun hclaimed _ ht hsame => hkey hclaimed ht (by rw [hsame])
  · exact fun hsame => by rw [hsame]
  · exact fun hclaimed _ ht => hkey hclaimed ht
  · exact fun hsame => by rw [hsame]
  · intro hclaimed _ ht hsame
    rw [ht, hclaimed] at hsame
    cases hsame
  · rintro rfl
    exact (Node.agrees_self_iff _).mpr hvalues
  · exact fun hclaimed _ ht hagrees =>
      hkey hclaimed ht (Node.cacheKey_eq_of_agrees hagrees).symm
  · rintro rfl later
    rfl
  · rintro hclaimed hown rfl hlater
    exact outcomes_withClaim_ne hown hclaimed (hlater _)
  · obtain ⟨-, herror, hown, ht⟩ := claimed_of_not_spares h hspares
    exact ⟨herror, hown, ht, fun terms => by rw [ht, Select.addDistinctOn_withClaim hown]⟩

/-- The guests, one of each name. -/
def firstGuests : Statement :=
  (outcomes [step (.addDistinctOn [.value (.text "name")])]
    (Select.ofColumns [Node.column "name", Node.column "room"])).2

/-- An extension is refused and leaves nothing behind; a claim is refused and stays. -/
theorem unchanged_iff_of_error_firstGuests :
    (step (.extend (.distinctOn [Node.column "room"]))).run.run firstGuests =
      (.error .distinctOnConflict, firstGuests) ∧
    (step (.extend (.distinctOn [Node.column "room"]))).Spares firstGuests ∧
    (Node.select firstGuests).agrees (Node.select firstGuests) = true ∧
    claim.run.run firstGuests = (.error .distinctOnConflict, firstGuests.withClaim true) ∧
    ¬ claim.Spares firstGuests ∧
    (Node.select (firstGuests.withClaim true)).cacheKey ≠ (Node.select firstGuests).cacheKey := by
  have hextend : (step (.extend (.distinctOn [Node.column "room"]))).run.run firstGuests =
      (.error .distinctOnConflict, firstGuests) := rfl
  have hspares : (step (.extend (.distinctOn [Node.column "room"]))).Spares firstGuests := .inl rfl
  have hvalues : ∀ v ∈ (Node.select firstGuests).values, v.isNaN = false := by decide
  have hclaim : claim.run.run firstGuests =
      (.error .distinctOnConflict, firstGuests.withClaim true) := rfl
  have hstays : ¬ claim.Spares firstGuests := by
    rintro (hcopy | hclaimed)
    · cases hcopy
    · cases hclaimed
  obtain ⟨-, -, -, hagrees, -, -⟩ := unchanged_iff_of_error hextend
  obtain ⟨-, hkey, -, -, -, -⟩ := unchanged_iff_of_error hclaim
  exact ⟨hextend, hspares, (hagrees hvalues).mpr hspares, hclaim, hstays, mt hkey.mp hstays⟩

/-- **A claim that is refused stays.** The statement has another key than before, it says that it is
claimed, and it refuses what it would have taken. -/
theorem refused_claim_stays :
    let after := (claim.run.run firstGuests).2
    (claim.run.run firstGuests).1 = .error .distinctOnConflict ∧
    (∀ v ∈ (Node.select firstGuests).values, v.isNaN = false) ∧
    (Node.select firstGuests).agrees (Node.select after) = false ∧
    (Node.select after).cacheKey ≠ (Node.select firstGuests).cacheKey ∧
    after.distinctOnClaimed = true ∧ firstGuests.distinctOnClaimed = false ∧
    after.addDistinctOn [.value (.text "room")] = .error .distinctOnConflict ∧
    (∃ t, firstGuests.addDistinctOn [.value (.text "room")] = .ok t) := by
  have hkey : (Node.select (firstGuests.withClaim true)).cacheKey ≠
      (Node.select firstGuests).cacheKey := fun h => nomatch Select.cacheKey_withClaim.mp h
  exact ⟨rfl, by decide, by decide, hkey, rfl, rfl, rfl, _, rfl⟩

end Operation

end SqlClause
