import SqlClause.Text.Quoted

/-!
# Reading delimited texts

A reader of a delimited text goes from the opening mark to the first mark that is not doubled, and
takes a doubled mark for one mark of the content. It knows nothing of how the text was written, and
it is given whatever stands behind the text as well. All that it needs is that no further mark
stands right behind the closing one.

* `scan_delimited`: the reader gets back what was written, and stops at what stands behind it;
* **`scan_eq_some_iff`**: it reads delimited texts and nothing else.
-/

namespace SqlClause.Text

/-- Reads the content of a delimited text and its closing mark, which is the first mark without
another one behind it. The content comes with its marks undoubled, and with what is left to read. -/
def scanContent (mark : Char) : List Char → Option (List Char × List Char)
  | [] => none
  | [c] => if c = mark then some ([], []) else none
  | c :: d :: rest =>
      if c ≠ mark then (scanContent mark (d :: rest)).map (Prod.map (c :: ·) id)
      else if d = mark then (scanContent mark rest).map (Prod.map (mark :: ·) id)
      else some ([], d :: rest)

/-- Reads a delimited text, from its opening mark to its closing one. -/
def scan (mark : Char) : List Char → Option (List Char × List Char)
  | [] => none
  | c :: cs => if c = mark then scanContent mark cs else none

variable {mark : Char}

/-! ## 1. What was written is read -/

theorem scanContent_of_ne {c : Char} (h : c ≠ mark) (cs : List Char) :
    scanContent mark (c :: cs) = (scanContent mark cs).map (Prod.map (c :: ·) id) := by
  cases cs with
  | nil => simp only [scanContent, if_neg h, Option.map_none]
  | cons d rest => rw [scanContent, if_pos h]

theorem scanContent_mark_mark (rest : List Char) :
    scanContent mark (mark :: mark :: rest) =
      (scanContent mark rest).map (Prod.map (mark :: ·) id) := by
  rw [scanContent, if_neg (not_not_intro rfl), if_pos rfl]

theorem scanContent_closing {rest : List Char} (h : rest.head? ≠ some mark) :
    scanContent mark (mark :: rest) = some ([], rest) := by
  cases rest with
  | nil => rw [scanContent, if_pos rfl]
  | cons d rest =>
      have hd : d ≠ mark := fun e => h (congrArg some e)
      rw [scanContent, if_neg (not_not_intro rfl), if_neg hd]

/-- A content is read up to its closing mark. -/
theorem scanContent_doubled {rest : List Char} (h : rest.head? ≠ some mark) (cs : List Char) :
    scanContent mark (doubled mark cs ++ mark :: rest) = some (cs, rest) := by
  induction cs with
  | nil => exact scanContent_closing h
  | cons c cs ih =>
      rw [doubled_cons]
      by_cases hc : c = mark
      · subst hc
        rw [if_pos rfl]
        show scanContent c (c :: c :: (doubled c cs ++ c :: rest)) = _
        rw [scanContent_mark_mark, ih]
        rfl
      · rw [if_neg hc]
        show scanContent mark (c :: (doubled mark cs ++ mark :: rest)) = _
        rw [scanContent_of_ne hc, ih]
        rfl

/-- **A delimited text is read as what was written**, and the reader stops right behind it. -/
theorem scan_delimited {rest : List Char} (h : rest.head? ≠ some mark) (s : String) :
    scan mark ((delimited mark s).toList ++ rest) = some (s.toList, rest) := by
  have htext : (delimited mark s).toList ++ rest =
      mark :: (doubled mark s.toList ++ mark :: rest) := by
    simp [delimited]
  rw [htext, scan, if_pos rfl, scanContent_doubled h]

/-- A delimited text with nothing behind it is read to its end. -/
theorem scan_delimited_to_end (s : String) :
    scan mark (delimited mark s).toList = some (s.toList, []) := by
  have hread : scan mark ((delimited mark s).toList ++ []) = some (s.toList, []) :=
    scan_delimited (by nofun) s
  rwa [List.append_nil] at hread

/-! ## 2. What is read was written -/

theorem eq_of_scanContent {cs ds rest : List Char} (h : scanContent mark cs = some (ds, rest)) :
    cs = doubled mark ds ++ mark :: rest ∧ rest.head? ≠ some mark := by
  induction cs using scanContent.induct mark generalizing ds with
  | case1 => cases h
  | case2 =>
      rw [scanContent, if_pos rfl] at h
      obtain ⟨rfl, rfl⟩ := Prod.mk.inj (Option.some.inj h)
      exact ⟨rfl, nofun⟩
  | case3 c hc =>
      rw [scanContent, if_neg hc] at h
      cases h
  | case4 c d later hc ih =>
      rw [scanContent_of_ne hc] at h
      obtain ⟨⟨es, r⟩, hread, heq⟩ := Option.map_eq_some_iff.mp h
      obtain ⟨rfl, rfl⟩ := Prod.mk.inj heq
      obtain ⟨htext, hrest⟩ := ih hread
      refine ⟨?_, hrest⟩
      rw [htext, doubled_cons, if_neg hc]
      rfl
  | case5 c later hc ih =>
      obtain rfl : c = mark := Decidable.not_not.mp hc
      rw [scanContent_mark_mark] at h
      obtain ⟨⟨es, r⟩, hread, heq⟩ := Option.map_eq_some_iff.mp h
      obtain ⟨rfl, rfl⟩ := Prod.mk.inj heq
      obtain ⟨htext, hrest⟩ := ih hread
      refine ⟨?_, hrest⟩
      rw [htext, doubled_cons, if_pos rfl]
      rfl
  | case6 c d later hc hd =>
      obtain rfl : c = mark := Decidable.not_not.mp hc
      have hhead : (d :: later).head? ≠ some c := fun e => hd (Option.some.inj e)
      rw [scanContent_closing hhead] at h
      obtain ⟨rfl, rfl⟩ := Prod.mk.inj (Option.some.inj h)
      exact ⟨rfl, hhead⟩

/-- **The reader reads delimited texts and nothing else**: what it has read is the text of the
content between two marks, and no mark stands right behind it. -/
theorem scan_eq_some_iff {cs rest : List Char} {s : String} :
    scan mark cs = some (s.toList, rest) ↔
      cs = (delimited mark s).toList ++ rest ∧ rest.head? ≠ some mark := by
  constructor
  · intro h
    cases cs with
    | nil => cases h
    | cons c cs =>
        rw [scan] at h
        split at h
        · rename_i hc
          obtain ⟨htext, hrest⟩ := eq_of_scanContent h
          refine ⟨?_, hrest⟩
          rw [hc, htext]
          simp [delimited]
        · cases h
  · rintro ⟨rfl, hrest⟩
    exact scan_delimited hrest s

end SqlClause.Text
