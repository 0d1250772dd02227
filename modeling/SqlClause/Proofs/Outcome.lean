import Mathlib.Data.List.Forall2

/-!
# Outcomes

A computation that can fail has a failure or a result. `ResultUnless` says of one which failures may
be due and what the result is if none of them is: then the computation succeeds exactly if none is
due. Several computations, one after the other, have the failures of each.

* `exists_of_bind_eq_ok`, `forall₂_of_mapM_eq_ok`: what has come before a result;
* `failure?_mapM`, `mapM_eq_error_iff`: the failure of a list;
* `ResultUnless.eq_ok_iff`: when there is a result, and which;
* `ResultUnless.bind`, **`ResultUnless.mapM`**: one computation after the other.
-/

namespace SqlClause

variable {ε α β : Type}

/-! ## 1. What has come before a result -/

theorem exists_of_bind_eq_ok {x : Except ε α} {f : α → Except ε β} {b : β}
    (h : (x >>= f) = .ok b) : ∃ a, x = .ok a ∧ f a = .ok b := by
  cases x with
  | error e => cases h
  | ok a => exact ⟨a, rfl, h⟩

theorem exists_of_map_eq_ok {x : Except ε α} {f : α → β} {b : β} (h : x.map f = .ok b) :
    ∃ a, x = .ok a ∧ b = f a := by
  cases x with
  | error e => cases h
  | ok a => exact ⟨a, rfl, (Except.ok.inj h).symm⟩

theorem eq_error_of_map_eq_error {x : Except ε α} {f : α → β} {e : ε}
    (h : x.map f = .error e) : x = .error e := by
  cases x with
  | error e' => rw [Except.error.inj h]
  | ok a => cases h

/-- The failure of a computation that has no result. -/
def failure? : Except ε α → Option ε
  | .error e => some e
  | .ok _ => none

theorem failure?_eq_some_iff {x : Except ε α} {e : ε} : failure? x = some e ↔ x = .error e := by
  cases x <;> simp [failure?]

theorem failure?_eq_none_iff {x : Except ε α} : failure? x = none ↔ ∃ a, x = .ok a := by
  cases x <;> simp [failure?]

/-- What is made of a result does not fail. -/
theorem failure?_bindPure (f : α → β) (x : Except ε α) :
    failure? (do return f (← x)) = failure? x := by
  cases x <;> rfl

/-- What is found first is decided by what the items have. -/
theorem findSome?_congr {f g : α → Option β} {as : List α} (h : ∀ a ∈ as, f a = g a) :
    as.findSome? f = as.findSome? g := by
  have hfirst := congrArg (List.findSome? id) (List.map_congr_left h)
  rw [List.findSome?_map, List.findSome?_map] at hfirst
  exact hfirst

/-- A list fails with the failure of the first of its items that fails. -/
theorem failure?_mapM (f : α → Except ε β) : ∀ as : List α,
    failure? (as.mapM f) = as.findSome? fun a => failure? (f a)
  | [] => rfl
  | a :: as => by
      rw [List.mapM_cons, List.findSome?_cons, ← failure?_mapM f as]
      cases f a with
      | error e => rfl
      | ok b => exact failure?_bindPure (b :: ·) _

/-- The failure is that of the first item that fails: all items before it have results. -/
def FirstFailure (f : α → Except ε β) (as : List α) (e : ε) : Prop :=
  ∃ before a after, as = before ++ a :: after ∧ (∀ b ∈ before, ∃ x, f b = .ok x) ∧ f a = .error e

theorem mapM_eq_error_iff {f : α → Except ε β} {as : List α} {e : ε} :
    as.mapM f = .error e ↔ FirstFailure f as e := by
  rw [← failure?_eq_some_iff, failure?_mapM, List.findSome?_eq_some_iff]
  simp only [FirstFailure, failure?_eq_some_iff, failure?_eq_none_iff]
  constructor
  · rintro ⟨before, a, after, hsplit, ha, hbefore⟩
    exact ⟨before, a, after, hsplit, hbefore, ha⟩
  · rintro ⟨before, a, after, hsplit, hbefore, ha⟩
    exact ⟨before, a, after, hsplit, ha, hbefore⟩

/-- A list has results if all of its items have theirs. -/
theorem exists_mapM_eq_ok_iff {f : α → Except ε β} {as : List α} :
    (∃ bs, as.mapM f = .ok bs) ↔ ∀ a ∈ as, ∃ b, f a = .ok b := by
  simp only [← failure?_eq_none_iff, failure?_mapM, List.findSome?_eq_none_iff]

/-- Two results of one computation are the same if there is none, or if they are. -/
theorem map_eq_map_iff {x : Except ε α} {f g : α → β} {P : Prop}
    (h : ∀ a, x = .ok a → (f a = g a ↔ P)) :
    x.map f = x.map g ↔ (∃ e, x.map g = .error e) ∨ P := by
  cases x with
  | error e => exact iff_of_true rfl (.inl ⟨e, rfl⟩)
  | ok a =>
      show Except.ok _ = Except.ok _ ↔ (∃ e, Except.ok _ = Except.error e) ∨ P
      rw [Except.ok.injEq, h a rfl]
      exact ⟨.inr, fun hcases => hcases.resolve_left nofun⟩

/-- The results of a list are the results of its items, one by one. -/
theorem forall₂_of_mapM_eq_ok {f : α → Except ε β} : ∀ {as : List α} {bs : List β},
    as.mapM f = .ok bs → List.Forall₂ (fun a b => f a = .ok b) as bs
  | [], bs, h => by
      obtain rfl : [] = bs := Except.ok.inj h
      exact .nil
  | a :: as, bs, h => by
      rw [List.mapM_cons] at h
      obtain ⟨b, hb, h⟩ := exists_of_bind_eq_ok h
      obtain ⟨rest, hrest, h⟩ := exists_of_bind_eq_ok h
      obtain rfl : b :: rest = bs := Except.ok.inj h
      exact .cons hb (forall₂_of_mapM_eq_ok hrest)

/-- What is on the right of two lists has its counterpart on the left. -/
theorem exists_of_mem_right {R : α → β → Prop} : ∀ {as : List α} {bs : List β},
    List.Forall₂ R as bs → ∀ {b : β}, b ∈ bs → ∃ a ∈ as, R a b
  | _, _, .nil, _, hb => nomatch hb
  | _, _, .cons h hrest, b, hb => by
      rcases List.mem_cons.mp hb with rfl | hb
      · exact ⟨_, List.mem_cons_self, h⟩
      · obtain ⟨a, ha, hab⟩ := exists_of_mem_right hrest hb
        exact ⟨a, List.mem_cons_of_mem _ ha, hab⟩

/-- What two lists agree in, item by item, they agree in as lists. -/
theorem map_eq_of_forall₂ {γ : Type} {R : α → β → Prop} {f : α → γ} {g : β → γ} {as : List α}
    {bs : List β} (hR : ∀ {a b}, R a b → f a = g b) (h : List.Forall₂ R as bs) :
    as.map f = bs.map g := by
  induction h with
  | nil => rfl
  | cons h _ ih => exact congrArg₂ List.cons (hR h) ih

/-- The results of a list whose items all have theirs. -/
theorem mapM_eq_ok {f : α → Except ε β} {g : α → β} : ∀ {as : List α},
    (∀ a ∈ as, f a = .ok (g a)) → as.mapM f = .ok (as.map g)
  | [], _ => rfl
  | a :: as, h => by
      rw [List.mapM_cons, h a List.mem_cons_self,
        mapM_eq_ok fun b hb => h b (List.mem_cons_of_mem _ hb)]
      rfl

/-- What is added to the results of a list by keys of its items is added to them one by one. -/
theorem mapM_map_zipWith {γ κ : Type} (f : α → Except ε β) (g : β → κ → γ) (key : α → κ) :
    ∀ as : List α, (as.mapM fun a => (f a).map (g · (key a))) =
      (as.mapM f).map fun bs => List.zipWith g bs (as.map key)
  | [] => rfl
  | a :: as => by
      rw [List.mapM_cons, List.mapM_cons, mapM_map_zipWith f g key as]
      cases f a with
      | error e => rfl
      | ok b => cases as.mapM f <;> rfl

/-! ## 2. Results that are known beforehand -/

/-- The computation has the result if none of the failures is due, and else fails with one of
them. -/
def ResultUnless (failure : ε → Prop) (result : α) : Except ε α → Prop
  | .ok a => a = result ∧ ∀ e, ¬ failure e
  | .error e => failure e

namespace ResultUnless

variable {failure later : ε → Prop} {a : α} {b : β} {x : Except ε α}

theorem ok (a : α) : ResultUnless (fun _ : ε => False) a (.ok a) := ⟨rfl, fun _ => id⟩

/-- There is a result exactly if no failure is due. -/
theorem eq_ok_iff (h : ResultUnless failure a x) {a' : α} :
    x = .ok a' ↔ a' = a ∧ ∀ e, ¬ failure e := by
  cases x with
  | ok a₀ =>
      obtain ⟨rfl, hnone⟩ := h
      constructor
      · intro heq
        exact ⟨(Except.ok.inj heq).symm, hnone⟩
      · rintro ⟨rfl, -⟩
        rfl
  | error e =>
      constructor
      · intro heq
        cases heq
      · rintro ⟨-, hnone⟩
        exact absurd h (hnone e)

theorem congr (h : ResultUnless failure a x) (hiff : ∀ e, failure e ↔ later e) :
    ResultUnless later a x := by
  rwa [← funext fun e => propext (hiff e)]

theorem map (f : α → β) (h : ResultUnless failure a x) : ResultUnless failure (f a) (f <$> x) := by
  cases x with
  | ok a₀ => exact ⟨congrArg f h.1, h.2⟩
  | error e => exact h

/-- What comes next cannot fail. -/
theorem bindOk {f : α → Except ε β} (h : ResultUnless failure a x) (hf : f a = .ok b) :
    ResultUnless failure b (x >>= f) := by
  cases x with
  | ok a₀ =>
      obtain ⟨rfl, hnone⟩ := h
      show ResultUnless failure b (f a₀)
      rw [hf]
      exact ⟨rfl, hnone⟩
  | error e => exact h

theorem bindPure (f : α → β) (h : ResultUnless failure a x) :
    ResultUnless failure (f a) (do return f (← x)) := h.bindOk rfl

/-- Of two computations, one after the other, each has its own failures. -/
theorem bind {f : α → Except ε β} (h : ResultUnless failure a x)
    (hf : ResultUnless later b (f a)) :
    ResultUnless (fun e => failure e ∨ later e) b (x >>= f) := by
  cases x with
  | error e => exact .inl h
  | ok a₀ =>
      obtain ⟨rfl, hnone⟩ := h
      exact hf.congr fun e => ⟨.inr, Or.rec (fun hfailure => absurd hfailure (hnone e)) id⟩

/-- **The failures of a list** are those of its items. -/
theorem mapM {f : α → Except ε β} {failure : α → ε → Prop} {result : α → β} :
    ∀ {as : List α}, (∀ a ∈ as, ResultUnless (failure a) (result a) (f a)) →
      ResultUnless (fun e => ∃ a ∈ as, failure a e) (as.map result) (as.mapM f)
  | [], _ => (ok []).congr fun e => by simp
  | a :: as, h => by
      have ih := mapM fun b (hb : b ∈ as) => h b (List.mem_cons_of_mem _ hb)
      rw [List.mapM_cons]
      refine ((h a List.mem_cons_self).bind (ih.bindPure (result a :: ·))).congr fun e => ?_
      rw [List.exists_mem_cons_iff]

/-- At most one item has its failures. -/
theorem optionMapM {f : α → Except ε β} {failure : α → ε → Prop} {result : α → β} {a : Option α}
    (h : ∀ x ∈ a, ResultUnless (failure x) (result x) (f x)) :
    ResultUnless (fun e => ∃ x ∈ a, failure x e) (a.map result) (a.mapM f) := by
  cases a with
  | none => exact (ok none).congr fun e => by simp
  | some x => exact ((h x rfl).map some).congr fun e => by simp

end ResultUnless

end SqlClause
