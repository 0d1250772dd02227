/-!
# Maps keyed by names

A `NameMap α` holds one value per name, in the order of the names (code point by code point, which
is also the order of their UTF-8 bytes). The order is part of the type: `sorted` says the names
strictly increase, so two maps with the same look-ups are the same map, and listing a map needs no
sort.

* `NameMap.get?_insert`: after `insert k v` the name `k` holds `v` and every other name is as it
  was;
* `NameMap.get?_ofList`: what a list of pairs puts under a name;
* `NameMap.insert` keeps `sorted` (`insertEntry_sorted`).
-/

namespace SqlClause

/-- A finite map from names to values, held as its entries in increasing order of the names. -/
structure NameMap (α : Type) where
  entries : List (String × α)
  sorted : entries.Pairwise (fun a b => a.1 < b.1)
deriving DecidableEq

namespace NameMap

variable {α : Type}

/-! ## 1. Insertion into sorted entries -/

/-- Puts `v` under `k`, in place of an earlier value of `k`, at the place the order asks for. -/
def insertEntry (k : String) (v : α) : List (String × α) → List (String × α)
  | [] => [(k, v)]
  | (k', v') :: rest =>
      if k < k' then (k, v) :: (k', v') :: rest
      else if k = k' then (k, v) :: rest
      else (k', v') :: insertEntry k v rest

theorem name_of_mem_insertEntry {k : String} {v : α} {e : String × α} :
    ∀ {l : List (String × α)}, e ∈ insertEntry k v l → e.1 = k ∨ e ∈ l
  | [], h => by simp only [insertEntry, List.mem_singleton] at h; exact .inl (h ▸ rfl)
  | (k', v') :: rest, h => by
      unfold insertEntry at h
      split at h
      · rcases List.mem_cons.mp h with rfl | h
        · exact .inl rfl
        · exact .inr h
      · split at h
        · rcases List.mem_cons.mp h with rfl | h
          · exact .inl rfl
          · exact .inr (List.mem_cons_of_mem _ h)
        · rcases List.mem_cons.mp h with rfl | h
          · exact .inr (List.mem_cons_self ..)
          · rcases name_of_mem_insertEntry h with e | h
            · exact .inl e
            · exact .inr (List.mem_cons_of_mem _ h)

theorem insertEntry_sorted (k : String) (v : α) :
    ∀ {l : List (String × α)}, l.Pairwise (fun a b => a.1 < b.1) →
      (insertEntry k v l).Pairwise (fun a b => a.1 < b.1)
  | [], _ => List.pairwise_singleton _ _
  | (k', v') :: rest, h => by
      obtain ⟨hlt, hrest⟩ := List.pairwise_cons.mp h
      unfold insertEntry
      split
      · rename_i hk
        refine List.pairwise_cons.mpr ⟨fun e he => ?_, h⟩
        rcases List.mem_cons.mp he with rfl | he
        · exact hk
        · exact String.lt_trans hk (hlt e he)
      · rename_i hk
        split
        · rename_i heq
          subst heq
          exact List.pairwise_cons.mpr ⟨hlt, hrest⟩
        · rename_i hne
          refine List.pairwise_cons.mpr ⟨fun e he => ?_, insertEntry_sorted k v hrest⟩
          rcases name_of_mem_insertEntry he with e' | he
          · rw [e']
            exact Std.lt_of_le_of_ne (Std.not_lt.mp hk) (fun e => hne e.symm)
          · exact hlt e he

/-! ## 2. The operations -/

/-- The map with no entry. -/
def empty : NameMap α := ⟨[], .nil⟩

instance : EmptyCollection (NameMap α) := ⟨empty⟩

instance : Inhabited (NameMap α) := ⟨empty⟩

/-- The map with `v` under `k` and everything else as before. -/
def insert (m : NameMap α) (k : String) (v : α) : NameMap α :=
  ⟨insertEntry k v m.entries, insertEntry_sorted k v m.sorted⟩

/-- The value under `k`, if there is one. -/
def get? (m : NameMap α) (k : String) : Option α := m.entries.lookup k

/-- The names, in increasing order. -/
def names (m : NameMap α) : List String := m.entries.map (·.1)

/-- The map of a list of pairs; of two pairs with one name the later one counts. -/
def ofList (pairs : List (String × α)) : NameMap α :=
  pairs.foldl (fun m p => m.insert p.1 p.2) empty

/-! ## 3. Look-ups after each operation -/

@[simp] theorem get?_empty (k : String) : (empty : NameMap α).get? k = none := rfl

theorem lookup_insertEntry (k k' : String) (v : α) :
    ∀ {l : List (String × α)}, l.Pairwise (fun a b => a.1 < b.1) →
      (insertEntry k v l).lookup k' = if k' = k then some v else l.lookup k'
  | [], _ => by
      by_cases h : k' = k
      · simp [insertEntry, h]
      · simp [insertEntry, List.lookup_cons, beq_eq_false_iff_ne.mpr h, h]
  | (k₀, v₀) :: rest, hs => by
      obtain ⟨_, hrest⟩ := List.pairwise_cons.mp hs
      unfold insertEntry
      split
      · by_cases h : k' = k
        · simp [h]
        · rw [List.lookup_cons, beq_eq_false_iff_ne.mpr h]
          simp [h]
      · split
        · rename_i heq
          subst heq
          by_cases h : k' = k
          · simp [h]
          · simp [List.lookup_cons, beq_eq_false_iff_ne.mpr h, h]
        · rename_i hne
          by_cases h₀ : k' = k₀
          · subst h₀
            have hk : ¬ k' = k := fun e => hne e.symm
            simp [hk]
          · rw [List.lookup_cons, List.lookup_cons, beq_eq_false_iff_ne.mpr h₀]
            exact lookup_insertEntry k k' v hrest

/-- **What `insert` writes is what `get?` reads, and nothing else changes.** -/
@[simp] theorem get?_insert (m : NameMap α) (k k' : String) (v : α) :
    (m.insert k v).get? k' = if k' = k then some v else m.get? k' :=
  lookup_insertEntry k k' v m.sorted

theorem get?_foldl_insert (k : String) : ∀ (pairs : List (String × α)) (m : NameMap α),
    (pairs.foldl (fun m p => m.insert p.1 p.2) m).get? k =
      ((pairs.reverse.find? (·.1 == k)).map (·.2)).or (m.get? k)
  | [], m => rfl
  | (k', v) :: pairs, m => by
      rw [List.foldl_cons, get?_foldl_insert k pairs, get?_insert, List.reverse_cons,
        List.find?_append]
      cases pairs.reverse.find? (·.1 == k) with
      | some p => rfl
      | none =>
          by_cases h : k = k'
          · simp [h]
          · simp [h, Ne.symm h]

/-- **Of the pairs with one name the last one counts.** -/
theorem get?_ofList (pairs : List (String × α)) (k : String) :
    (ofList pairs).get? k = (pairs.reverse.find? (·.1 == k)).map (·.2) := by
  rw [ofList, get?_foldl_insert, get?_empty, Option.or_none]

@[simp] theorem entries_empty : (empty : NameMap α).entries = [] := rfl

@[simp] theorem names_empty : (empty : NameMap α).names = [] := rfl

theorem ext_entries {m₁ m₂ : NameMap α} (h : m₁.entries = m₂.entries) : m₁ = m₂ := by
  cases m₁; cases m₂; cases h; rfl

end NameMap

end SqlClause
