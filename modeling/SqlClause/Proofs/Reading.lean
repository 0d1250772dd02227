import SqlClause.Text.Outline

/-!
# Texts that can be read back

A text that is made of parts can be read back if it is clear where each part ends. `Readable after
write` says so for one kind of part: whatever follows a part, as long as it is as `after` says, the
part and what follows it can be told from the characters of both together. A number ends where no
digit follows (`readable_repr`); a quoted string ends by itself, since a quote inside it is escaped
(`readable_quoted`); items between marks end by themselves if each of them does
(`separated_append_inj`).

* `append_inj_of_all`: a run of characters of a class ends where the class ends;
* `escape_append_inj`: the form of a character in a quoted string ends by itself;
* **`readable_quoted`**, **`readable_option`**: so do quoted strings and outlines of options.
-/

namespace SqlClause.Text

/-! ## 1. What can follow -/

/-- Nothing of the class comes next. -/
def NoneAhead (p : Char → Bool) (r : List Char) : Prop := ∀ c ∈ r.head?, p c = false

/-- Anything can come next. -/
def AnyAhead (_ : List Char) : Prop := True

theorem noneAhead_cons {p : Char → Bool} {c : Char} {r : List Char} :
    NoneAhead p (c :: r) ↔ p c = false := by
  simp [NoneAhead]

/-- Two runs of a class that are followed by nothing of the class are one run. -/
theorem append_inj_of_all {p : Char → Bool} :
    ∀ {xs ys r s : List Char}, (∀ c ∈ xs, p c = true) → (∀ c ∈ ys, p c = true) →
      NoneAhead p r → NoneAhead p s → xs ++ r = ys ++ s → xs = ys ∧ r = s
  | [], [], _, _, _, _, _, _, h => ⟨rfl, h⟩
  | [], y :: ys, r, s, _, hy, hr, _, h => by
      have hp : p y = true := hy y List.mem_cons_self
      rw [List.nil_append, List.cons_append] at h
      rw [h, noneAhead_cons, hp] at hr
      cases hr
  | x :: xs, [], r, s, hx, _, _, hs, h => by
      have hp : p x = true := hx x List.mem_cons_self
      rw [List.nil_append, List.cons_append] at h
      rw [← h, noneAhead_cons, hp] at hs
      cases hs
  | x :: xs, y :: ys, r, s, hx, hy, hr, hs, h => by
      obtain ⟨rfl, htail⟩ := List.cons.inj h
      have hx' : ∀ c ∈ xs, p c = true := fun c hc => hx c (List.mem_cons_of_mem _ hc)
      have hy' : ∀ c ∈ ys, p c = true := fun c hc => hy c (List.mem_cons_of_mem _ hc)
      obtain ⟨rfl, rfl⟩ := append_inj_of_all hx' hy' hr hs htail
      exact ⟨rfl, rfl⟩

/-- An item and what follows it can be told from their characters. -/
def Readable {α : Type} (after : List Char → Prop) (write : α → List Char) : Prop :=
  ∀ ⦃a b : α⦄ ⦃r s : List Char⦄, after r → after s → write a ++ r = write b ++ s → a = b ∧ r = s

theorem Readable.comp {α β : Type} {after : List Char → Prop} {write : α → List Char}
    (h : Readable after write) {f : β → α} (hf : ∀ ⦃a b⦄, f a = f b → a = b) :
    Readable after fun b => write (f b) := by
  intro a b r s hr hs e
  obtain ⟨hab, hrs⟩ := h hr hs e
  exact ⟨hf hab, hrs⟩

/-! ## 2. Numbers -/

theorem digitChar_inj {m n : Nat} (hm : m < 16) (hn : n < 16)
    (h : m.digitChar = n.digitChar) : m = n := by
  have key : ∀ m < 16, ∀ n < 16, m.digitChar = n.digitChar → m = n := by decide
  exact key m hm n hn h

/-- A number is known by its digits, in any base up to sixteen. -/
theorem toDigits_inj {b : Nat} (hb : 1 < b) (hb' : b ≤ 16) {m : Nat} :
    ∀ {n : Nat}, Nat.toDigits b m = Nat.toDigits b n → m = n := by
  induction m using Nat.strongRecOn with
  | _ m ih =>
    intro n h
    have hpos : 0 < b := by omega
    by_cases hm : m < b <;> by_cases hn : n < b
    · rw [Nat.toDigits_of_lt_base hm, Nat.toDigits_of_lt_base hn] at h
      exact digitChar_inj (by omega) (by omega) (List.singleton_inj.mp h)
    · rw [Nat.toDigits_of_lt_base hm, Nat.toDigits_of_base_le hb (Nat.not_lt.mp hn)] at h
      have hlen := congrArg List.length h
      have hne : 0 < (Nat.toDigits b (n / b)).length := Nat.length_toDigits_pos
      simp only [List.length_append, List.length_singleton] at hlen
      omega
    · rw [Nat.toDigits_of_base_le hb (Nat.not_lt.mp hm), Nat.toDigits_of_lt_base hn] at h
      have hlen := congrArg List.length h
      have hne : 0 < (Nat.toDigits b (m / b)).length := Nat.length_toDigits_pos
      simp only [List.length_append, List.length_singleton] at hlen
      omega
    · rw [Nat.toDigits_of_base_le hb (Nat.not_lt.mp hm),
        Nat.toDigits_of_base_le hb (Nat.not_lt.mp hn)] at h
      obtain ⟨hdiv, hlast⟩ := List.append_inj' h rfl
      have hlt : m / b < m := Nat.div_lt_self (by omega) hb
      have hq : m / b = n / b := ih (m / b) hlt hdiv
      have hr : m % b = n % b :=
        digitChar_inj (Nat.lt_of_lt_of_le (Nat.mod_lt m hpos) hb')
          (Nat.lt_of_lt_of_le (Nat.mod_lt n hpos) hb') (List.singleton_inj.mp hlast)
      rw [← Nat.div_add_mod m b, ← Nat.div_add_mod n b, hq, hr]

/-- A number ends where no digit follows. -/
theorem readable_repr : Readable (NoneAhead Char.isDigit) fun n : Nat => n.repr.toList := by
  intro m n r s hr hs h
  simp only [Nat.toList_repr] at h
  have hd : ∀ k : Nat, ∀ c ∈ Nat.toDigits 10 k, c.isDigit = true :=
    fun k c hc => Nat.isDigit_of_mem_toDigits (by decide) (by decide) hc
  obtain ⟨hmn, hrs⟩ := append_inj_of_all (hd m) (hd n) hr hs h
  exact ⟨toDigits_inj (by decide) (by decide) hmn, hrs⟩

/-- The digits of a number are digits of some numbers. -/
theorem exists_digitChar_of_mem_toDigits {b : Nat} (hb : 1 < b) {c : Char} {n : Nat} :
    c ∈ Nat.toDigits b n → ∃ k, c = Nat.digitChar k := by
  induction n using Nat.strongRecOn with
  | _ n ih =>
    intro hc
    rw [Nat.toDigits_eq_if hb] at hc
    split at hc
    · exact ⟨n, List.mem_singleton.mp hc⟩
    · rename_i hn
      rcases List.mem_append.mp hc with hc | hc
      · exact ih (n / b) (Nat.div_lt_self (by omega) hb) hc
      · exact ⟨n % b, List.mem_singleton.mp hc⟩

/-! ## 3. Quoted strings -/

/-- The number of a character ends at the brace behind it. -/
theorem hexDigits_append_inj {c d : Char} {r s : List Char}
    (h : hexDigits c.toNat ++ '\x7d' :: r = hexDigits d.toNat ++ '\x7d' :: s) : c = d ∧ r = s := by
  have hp : ∀ k : Nat, ∀ x ∈ hexDigits k, (x != '\x7d') = true := by
    intro k x hx
    obtain ⟨j, rfl⟩ := exists_digitChar_of_mem_toDigits (by decide) hx
    exact bne_iff_ne.mpr (Nat.digitChar_ne '\x7d' (by decide))
  obtain ⟨hcd, hrs⟩ := append_inj_of_all (hp _) (hp _) (noneAhead_cons.mpr (by decide))
    (noneAhead_cons.mpr (by decide)) h
  have hn : c.toNat = d.toNat := toDigits_inj (by decide) (by decide) hcd
  exact ⟨Char.toNat_inj.mp hn, (List.cons.inj hrs).2⟩

/-- The character for which a letter stands behind a backslash. -/
def unescape (x : Char) : Char :=
  if x = '0' then '\x00' else if x = 't' then '\t' else if x = 'r' then '\r'
  else if x = 'n' then '\n' else x

/-- A character stands for itself, or behind a backslash for what a letter or a number says. -/
theorem escape_cases (c : Char) :
    (escape c = [c] ∧ c ≠ '\\' ∧ c ≠ '"') ∨
    (∃ x, escape c = ['\\', x] ∧ x ≠ 'u' ∧ c = unescape x) ∨
    escape c = '\\' :: 'u' :: '\x7b' :: (hexDigits c.toNat ++ ['\x7d']) := by
  unfold escape
  split
  · rename_i h
    exact .inr (.inl ⟨'0', rfl, by decide, h⟩)
  split
  · rename_i h
    exact .inr (.inl ⟨'t', rfl, by decide, h⟩)
  split
  · rename_i h
    exact .inr (.inl ⟨'r', rfl, by decide, h⟩)
  split
  · rename_i h
    exact .inr (.inl ⟨'n', rfl, by decide, h⟩)
  split
  · rename_i h
    refine .inr (.inl ⟨c, rfl, ?_⟩)
    rcases h with rfl | rfl <;> decide
  rename_i hmark
  split
  · exact .inr (.inr rfl)
  · exact .inl ⟨rfl, fun e => hmark (.inr e), fun e => hmark (.inl e)⟩

/-- **The form of a character ends by itself.** -/
theorem escape_append_inj {c d : Char} {r s : List Char} (h : escape c ++ r = escape d ++ s) :
    c = d ∧ r = s := by
  rcases escape_cases c with ⟨ec, hc, -⟩ | ⟨x, ec, hx, hcx⟩ | ec <;>
    rcases escape_cases d with ⟨ed, hd, -⟩ | ⟨y, ed, hy, hdy⟩ | ed <;>
    simp only [ec, ed, List.cons_append, List.nil_append, List.append_assoc, List.cons.injEq] at h
  · exact h
  · exact absurd h.1 hc
  · exact absurd h.1 hc
  · exact absurd h.1.symm hd
  · exact ⟨by rw [hcx, hdy, h.2.1], h.2.2⟩
  · exact absurd h.2.1 hx
  · exact absurd h.1.symm hd
  · exact absurd h.2.1.symm hy
  · exact hexDigits_append_inj h.2.2.2

/-- The form of a character does not begin with the quote. -/
theorem escape_append_ne_quote (c : Char) (r s : List Char) : escape c ++ r ≠ '"' :: s := by
  intro h
  rcases escape_cases c with ⟨ec, -, hc⟩ | ⟨x, ec, -⟩ | ec <;>
    simp only [ec, List.cons_append, List.cons.injEq] at h
  · exact hc h.1
  · exact absurd h.1 (by decide)
  · exact absurd h.1 (by decide)

theorem quoteChars_append_inj : ∀ {cs ds r s : List Char},
    quoteChars cs ++ '"' :: r = quoteChars ds ++ '"' :: s → cs = ds ∧ r = s
  | [], [], _, _, h => ⟨rfl, (List.cons.inj h).2⟩
  | [], d :: ds, r, s, h => by
      rw [quoteChars_nil, quoteChars_cons, List.nil_append, List.append_assoc] at h
      exact absurd h.symm (escape_append_ne_quote d _ _)
  | c :: cs, [], r, s, h => by
      rw [quoteChars_nil, quoteChars_cons, List.nil_append, List.append_assoc] at h
      exact absurd h (escape_append_ne_quote c _ _)
  | c :: cs, d :: ds, r, s, h => by
      rw [quoteChars_cons, quoteChars_cons, List.append_assoc, List.append_assoc] at h
      obtain ⟨rfl, htail⟩ := escape_append_inj h
      obtain ⟨rfl, hrs⟩ := quoteChars_append_inj htail
      exact ⟨rfl, hrs⟩

/-- **A quoted string ends by itself.** -/
theorem readable_quoted : Readable AnyAhead fun s : String => (quoted s).toList := by
  intro a b r s _ _ h
  simp only [quoted, String.toList_append, String.toList_ofList, List.append_assoc] at h
  obtain ⟨hab, hrs⟩ := quoteChars_append_inj (List.cons.inj h).2
  exact ⟨String.toList_inj.mp hab, hrs⟩

/-! ## 4. What may be absent -/

/-- What may be absent ends by itself, if what it holds ends before a bracket. -/
theorem readable_option {α : Type} {after : List Char → Prop} {write : α → String}
    (hafter : ∀ r, after (')' :: r)) (h : Readable after fun a => (write a).toList) :
    Readable AnyAhead fun a : Option α => (outlineOption (a.map write)).toList := by
  have hnone : ∀ r, (outlineOption none).toList ++ r = 'N' :: ("one".toList ++ r) := fun _ => rfl
  have hsome : ∀ (a : α) r, (outlineOption (some (write a))).toList ++ r =
      'S' :: ("ome(".toList ++ ((write a).toList ++ ')' :: r)) := by
    intro a r
    simp [outlineOption, outlineApply]
  intro a b r s _ _ e
  cases a <;> cases b <;>
    simp only [Option.map_none, Option.map_some, hnone, hsome, List.cons.injEq] at e
  · exact ⟨rfl, List.append_cancel_left e.2⟩
  · exact absurd e.1 (by decide)
  · exact absurd e.1 (by decide)
  · obtain ⟨rfl, hrs⟩ := h (hafter _) (hafter _) (List.append_cancel_left e.2)
    exact ⟨rfl, (List.cons.inj hrs).2⟩

/-! ## 5. Items between marks -/

/-- Items with a separator between them and a mark behind them, after the first. -/
def laterItems (separator close : Char) (items : List (List Char)) (r : List Char) : List Char :=
  items.foldr (fun item rest => separator :: (item ++ rest)) (close :: r)

theorem intercalate_cons_append_close {separator close : Char} (item : List Char) :
    ∀ (items : List (List Char)) (r : List Char),
      [separator].intercalate (item :: items) ++ close :: r =
        item ++ laterItems separator close items r := by
  intro items
  induction items generalizing item with
  | nil =>
      intro r
      simp [laterItems]
  | cons next items ih =>
      intro r
      have step := ih next r
      simp only [laterItems, List.foldr_cons] at step ⊢
      rw [← step, List.intercalate_cons_cons]
      simp

/-- Later items are read one by one, up to the mark behind the last. -/
theorem laterItems_append_inj {α β : Type} {write : α → List Char} {read : α → β}
    {separator close : Char} (hmarks : separator ≠ close) :
    ∀ {as bs : List α} {r s : List Char},
      (∀ a ∈ as, ∀ b ∈ bs, ∀ r s, write a ++ r = write b ++ s → read a = read b ∧ r = s) →
      laterItems separator close (as.map write) r = laterItems separator close (bs.map write) s →
      as.map read = bs.map read ∧ r = s
  | [], [], _, _, _, h => ⟨rfl, (List.cons.inj h).2⟩
  | [], _ :: _, _, _, _, h => absurd (List.cons.inj h).1.symm hmarks
  | _ :: _, [], _, _, _, h => absurd (List.cons.inj h).1 hmarks
  | a :: as, b :: bs, r, s, hread, h => by
      obtain ⟨hab, htail⟩ :=
        hread a List.mem_cons_self b List.mem_cons_self _ _ (List.cons.inj h).2
      have hread' : ∀ a ∈ as, ∀ b ∈ bs, ∀ r s,
          write a ++ r = write b ++ s → read a = read b ∧ r = s :=
        fun a ha b hb => hread a (List.mem_cons_of_mem _ ha) b (List.mem_cons_of_mem _ hb)
      obtain ⟨hrest, hrs⟩ := laterItems_append_inj hmarks hread' htail
      exact ⟨by rw [List.map_cons, List.map_cons, hab, hrest], hrs⟩

/-- **Items between marks are read one by one**, if each of them ends by itself and none begins
with the mark behind the last. -/
theorem separated_append_inj {α β : Type} {write : α → List Char} {read : α → β}
    {separator close : Char} (hmarks : separator ≠ close) {as bs : List α} {r s : List Char}
    (hread : ∀ a ∈ as, ∀ b ∈ bs, ∀ r s, write a ++ r = write b ++ s → read a = read b ∧ r = s)
    (hclose : ∀ a r s, write a ++ r ≠ close :: s)
    (h : [separator].intercalate (as.map write) ++ close :: r =
      [separator].intercalate (bs.map write) ++ close :: s) :
    as.map read = bs.map read ∧ r = s := by
  cases as with
  | nil =>
      cases bs with
      | nil => exact ⟨rfl, (List.cons.inj h).2⟩
      | cons b bs =>
          rw [List.map_cons, intercalate_cons_append_close] at h
          exact absurd h.symm (hclose b _ _)
  | cons a as =>
      cases bs with
      | nil =>
          rw [List.map_cons, intercalate_cons_append_close] at h
          exact absurd h (hclose a _ _)
      | cons b bs =>
          rw [List.map_cons, List.map_cons, intercalate_cons_append_close,
            intercalate_cons_append_close] at h
          obtain ⟨hab, htail⟩ := hread a List.mem_cons_self b List.mem_cons_self _ _ h
          have hread' : ∀ a ∈ as, ∀ b ∈ bs, ∀ r s,
              write a ++ r = write b ++ s → read a = read b ∧ r = s :=
            fun a ha b hb => hread a (List.mem_cons_of_mem _ ha) b (List.mem_cons_of_mem _ hb)
          obtain ⟨hrest, hrs⟩ := laterItems_append_inj hmarks hread' htail
          exact ⟨by rw [List.map_cons, List.map_cons, hab, hrest], hrs⟩

end SqlClause.Text
