import SqlClause.Proofs.Delimited
import SqlClause.Proofs.Layout

/-!
# Names in a text

An identifier is a name as it stands, or the name between quote marks. A reader that knows nothing
but the quote mark can tell the two apart by the first character, since no plain name has the mark
in it, and can tell where either of them ends. So a name is never mistaken for another one, and
neither is the name of a relation, in which a dot stands between two identifiers, whatever dots and
marks there are in the names. All this is said of the dialects that quote in the common way.

* `Dialect.KeepsQuoting.quote_cases`: the two forms of an identifier;
* `readIdentifier_quote`: an identifier is read back, and what stands behind it is left;
* `readRelation_relation`: so is the name of a relation;
* **`Dialect.quote_self_delimiting`**: identifiers and names of relations are known by their texts.
-/

namespace SqlClause

/-! ## 1. Plain names -/

/-- A character of a plain name: one of `[a-z0-9_$]`. -/
def PlainChar (c : Char) : Prop :=
  ('a' ≤ c ∧ c ≤ 'z') ∨ ('0' ≤ c ∧ c ≤ '9') ∨ c = '_' ∨ c = '$'

instance : DecidablePred PlainChar := fun _ => inferInstanceAs (Decidable (_ ∨ _ ∨ _ ∨ _))

/-- A plain name: one of `[a-z_][a-z0-9_$]*`. -/
def PlainName (name : String) : Prop :=
  ∃ c cs, name.toList = c :: cs ∧ (('a' ≤ c ∧ c ≤ 'z') ∨ c = '_') ∧ ∀ d ∈ cs, PlainChar d

theorem isLower_iff {c : Char} : c.isLower = true ↔ 'a' ≤ c ∧ c ≤ 'z' := by
  show (decide ('a' ≤ c) && decide (c ≤ 'z')) = true ↔ _
  rw [Bool.and_eq_true, decide_eq_true_eq, decide_eq_true_eq]

theorem isDigit_iff {c : Char} : c.isDigit = true ↔ '0' ≤ c ∧ c ≤ '9' := by
  show (decide ('0' ≤ c) && decide (c ≤ '9')) = true ↔ _
  rw [Bool.and_eq_true, decide_eq_true_eq, decide_eq_true_eq]

theorem startsName_iff {c : Char} : startsName c = true ↔ ('a' ≤ c ∧ c ≤ 'z') ∨ c = '_' := by
  rw [startsName, Bool.or_eq_true, isLower_iff, beq_iff_eq]

theorem continuesName_iff {c : Char} : continuesName c = true ↔ PlainChar c := by
  simp only [continuesName, Bool.or_eq_true, isLower_iff, isDigit_iff, beq_iff_eq, PlainChar,
    or_assoc]

theorem isPlainName_iff {name : String} : isPlainName name.toList = true ↔ PlainName name := by
  rw [PlainName]
  cases name.toList with
  | nil => simp [isPlainName]
  | cons c cs =>
      rw [isPlainName, Bool.and_eq_true, startsName_iff, List.all_eq_true]
      constructor
      · rintro ⟨hc, hall⟩
        exact ⟨c, cs, rfl, hc, fun d hd =>
          continuesName_iff.mp (hall d (List.mem_cons_of_mem c hd))⟩
      · rintro ⟨_, _, heq, hc, hall⟩
        obtain ⟨rfl, rfl⟩ := List.cons.inj heq
        refine ⟨hc, fun d hd => continuesName_iff.mpr ?_⟩
        rcases List.mem_cons.mp hd with rfl | hd
        · exact hc.imp_right fun h => .inr (.inl h)
        · exact hall d hd

/-- Which names stand as they are: the plain ones that are not reserved. -/
theorem requiresQuotes_eq_false_iff_plainName {name : String} :
    requiresQuotes name = false ↔ PlainName name ∧ name ∉ reservedWords := by
  rw [requiresQuotes_eq_false_iff, isPlainName_iff]

/-! ## 2. Reading identifiers -/

/-- Reads an identifier, with what is left to read: a delimited text, if it begins with the mark, or
else a name as far as it is plain. -/
def readIdentifier (mark : Char) (cs : List Char) : Option (String × List Char) :=
  if cs.head? = some mark then (Text.scan mark cs).map (Prod.map String.ofList id)
  else
    let name := cs.takeWhile fun c => decide (PlainChar c)
    if name = [] then none
    else some (String.ofList name, cs.dropWhile fun c => decide (PlainChar c))

/-- Reads the name of a relation: an identifier, or two of them with a dot between them. -/
def readRelation (mark : Char) (cs : List Char) : Option Relation := do
  let (first, rest) ← readIdentifier mark cs
  match rest with
  | [] => return ⟨none, first⟩
  | '.' :: rest =>
      let (second, rest) ← readIdentifier mark rest
      if rest = [] then return ⟨some first, second⟩ else none
  | _ => none

variable {d : Dialect}

/-- **The two forms of an identifier**: the name as it stands, or the name between marks. -/
theorem Dialect.KeepsQuoting.quote_cases (hkeeps : d.KeepsQuoting) (name : String) :
    (d.quote name = name ∧ PlainName name ∧ name ∉ reservedWords) ∨
      (d.quote name = Text.delimited d.quoteMark name ∧
        ¬ (PlainName name ∧ name ∉ reservedWords)) := by
  rw [← requiresQuotes_eq_false_iff_plainName, hkeeps.quote_eq]
  cases SqlClause.requiresQuotes name with
  | false => exact .inl ⟨rfl, rfl⟩
  | true => exact .inr ⟨rfl, Bool.noConfusion⟩

/-- A plain name is made of plain characters, and of one at least. -/
theorem PlainName.chars {name : String} (h : PlainName name) :
    name.toList ≠ [] ∧ ∀ c ∈ name.toList, PlainChar c := by
  obtain ⟨c, cs, hname, hc, hall⟩ := h
  rw [hname]
  refine ⟨List.cons_ne_nil c cs, fun x hx => ?_⟩
  rcases List.mem_cons.mp hx with rfl | hx
  · exact hc.imp_right fun h => .inr (.inl h)
  · exact hall x hx

/-- A name as it stands is read as far as it goes. -/
theorem readIdentifier_plainName {mark : Char} (hmark : ¬ PlainChar mark) {name : String}
    (hname : PlainName name) {rest : List Char} (hrest : ∀ c ∈ rest.head?, ¬ PlainChar c) :
    readIdentifier mark (name.toList ++ rest) = some (name, rest) := by
  obtain ⟨hne, hall⟩ := hname.chars
  have hhead : (name.toList ++ rest).head? ≠ some mark := by
    obtain ⟨c, cs, hcons⟩ := List.exists_cons_of_ne_nil hne
    rw [hcons] at hall ⊢
    intro h
    obtain rfl := Option.some.inj h
    exact hmark (hall c List.mem_cons_self)
  have hword : ∀ c ∈ name.toList, decide (PlainChar c) = true :=
    fun c hc => decide_eq_true (hall c hc)
  have hstop : rest.takeWhile (fun c => decide (PlainChar c)) = [] ∧
      rest.dropWhile (fun c => decide (PlainChar c)) = rest := by
    cases rest with
    | nil => exact ⟨rfl, rfl⟩
    | cons c rest =>
        have hc : ¬ decide (PlainChar c) = true := fun h => hrest c rfl (of_decide_eq_true h)
        exact ⟨List.takeWhile_cons_of_neg hc, List.dropWhile_cons_of_neg hc⟩
  rw [readIdentifier, if_neg hhead, List.takeWhile_append_of_pos hword,
    List.dropWhile_append_of_pos hword, hstop.1, hstop.2, List.append_nil]
  simp only [if_neg hne, String.ofList_toList]

/-- **An identifier is read back**, and what stands behind it is left to read. -/
theorem readIdentifier_quote (hkeeps : d.KeepsQuoting) (hmark : ¬ PlainChar d.quoteMark)
    (name : String) {rest : List Char}
    (hrest : ∀ c ∈ rest.head?, ¬ PlainChar c ∧ c ≠ d.quoteMark) :
    readIdentifier d.quoteMark ((d.quote name).toList ++ rest) = some (name, rest) := by
  rcases hkeeps.quote_cases name with ⟨htext, hname, -⟩ | ⟨htext, -⟩
  · rw [htext]
    exact readIdentifier_plainName hmark hname fun c hc => (hrest c hc).1
  · have hclosed : rest.head? ≠ some d.quoteMark := fun h => (hrest d.quoteMark h).2 rfl
    have hhead : ((Text.delimited d.quoteMark name).toList ++ rest).head? =
        some d.quoteMark := by
      simp [Text.delimited]
    rw [htext, readIdentifier, if_pos hhead, Text.scan_delimited hclosed, Option.map_some,
      Prod.map_apply, String.ofList_toList, id]

/-- An identifier with nothing behind it is read to its end. -/
theorem readIdentifier_quote_to_end (hkeeps : d.KeepsQuoting) (hmark : ¬ PlainChar d.quoteMark)
    (name : String) : readIdentifier d.quoteMark (d.quote name).toList = some (name, []) := by
  have hread : readIdentifier d.quoteMark ((d.quote name).toList ++ []) = some (name, []) :=
    readIdentifier_quote hkeeps hmark name (by nofun)
  rwa [List.append_nil] at hread

/-- **The name of a relation is read back.** A dot in a name is no dot between names. -/
theorem readRelation_relation {s : Settings} (hkeeps : s.dialect.KeepsQuoting)
    (hmark : ¬ PlainChar s.dialect.quoteMark) (hdot : s.dialect.quoteMark ≠ '.') (inDdl : Bool)
    (r : Relation) :
    readRelation s.dialect.quoteMark ((s.style inDdl).relation r).toList = some r := by
  have hname := readIdentifier_quote_to_end hkeeps hmark r.name
  rcases r with ⟨_ | schema, name⟩
  · show readRelation _ (s.dialect.quote name).toList = _
    rw [readRelation, hname]
    rfl
  · have hbehind : ∀ c ∈ ('.' :: (s.dialect.quote name).toList).head?,
        ¬ PlainChar c ∧ c ≠ s.dialect.quoteMark := by
      intro c hc
      obtain rfl := Option.some.inj hc
      exact ⟨by decide, hdot.symm⟩
    have htext : ((s.style inDdl).relation ⟨some schema, name⟩).toList =
        (s.dialect.quote schema).toList ++ '.' :: (s.dialect.quote name).toList := by
      simp [Style.relation, Settings.style]
    rw [htext, readRelation, readIdentifier_quote hkeeps hmark schema hbehind]
    show (readIdentifier _ _ >>= _) = _
    rw [hname]
    rfl

/-! ## 3. Names are known by their texts -/

/-- **Identifiers and names of relations are known by their texts**, in every dialect that quotes in
the common way with a mark that is no plain character and no dot. An identifier is the name itself,
if the name is plain and not reserved, or else it begins with the mark and is read, up to the first
mark that is not doubled, to its last character and as the name. The name of a relation is read back
as the relation. So no two names have one identifier, and no two relations one name. -/
theorem Dialect.quote_self_delimiting (hkeeps : d.KeepsQuoting) (hmark : ¬ PlainChar d.quoteMark)
    (hdot : d.quoteMark ≠ '.') :
    (∀ name,
      (d.quote name = name ∧ PlainName name ∧ name ∉ reservedWords) ∨
      (Text.scan d.quoteMark (d.quote name).toList = some (name.toList, []) ∧
        ¬ (PlainName name ∧ name ∉ reservedWords))) ∧
    Function.Injective d.quote ∧
    ∃ text : Relation → String,
      (∀ (s : Settings) (p : Progress) (r : Relation), s.dialect = d →
        RenderM.relation r s p = (.ok (text r), p)) ∧
      (∀ r, readRelation d.quoteMark (text r).toList = some r) ∧ Function.Injective text := by
  -- a relation is spelled by the dialect alone, so any settings of the dialect will do
  have hrelation : ∀ r, readRelation d.quoteMark
      (((Settings.mk d .empty false).style false).relation r).toList = some r :=
    readRelation_relation (s := ⟨d, .empty, false⟩) hkeeps hmark hdot false
  refine ⟨fun name => ?_, fun name other h => ?_, _, fun s p r hs => ?_, hrelation,
    fun r r' h => ?_⟩
  · refine (hkeeps.quote_cases name).imp_right fun ⟨htext, hname⟩ => ⟨?_, hname⟩
    rw [htext, Text.scan_delimited_to_end]
  · have hname := readIdentifier_quote_to_end hkeeps hmark name
    have hother := readIdentifier_quote_to_end hkeeps hmark other
    rw [h, hother] at hname
    exact (congrArg Prod.fst (Option.some.inj hname)).symm
  · subst hs
    exact congrFun (RenderM.relation_at r s false) p
  · have hr := hrelation r
    rw [h, hrelation r'] at hr
    exact (Option.some.inj hr).symm

/-- Both dialects quote in the common way. A mark stands in both names of a relation, and a dot in
one of them. -/
theorem Dialect.quote_self_delimiting_postgresql :
    generic.KeepsQuoting ∧ postgresql.KeepsQuoting ∧
    ¬ PlainChar postgresql.quoteMark ∧ postgresql.quoteMark ≠ '.' ∧
    postgresql.quote "room" = "room" ∧
    Text.scan '"' "\"user\"".toList = some ("user".toList, []) ∧
    readRelation '"' "\"a.\"\"b\".\"\"\"c\"".toList = some ⟨some "a.\"b", "\"c"⟩ := by
  have hmark : ¬ PlainChar postgresql.quoteMark := by decide
  have hdot : postgresql.quoteMark ≠ '.' := by decide
  obtain ⟨hquote, -, text, htext, hread, -⟩ :=
    quote_self_delimiting keepsQuoting_postgresql hmark hdot
  refine ⟨keepsQuoting_generic, keepsQuoting_postgresql, hmark, hdot, ?_, ?_, ?_⟩
  · rcases hquote "room" with ⟨hself, -⟩ | ⟨-, hplain⟩
    · exact hself
    · exact absurd (requiresQuotes_eq_false_iff_plainName.mp rfl) hplain
  · rcases hquote "user" with ⟨-, -, hfree⟩ | ⟨hscan, -⟩
    · exact absurd (by decide) hfree
    · exact hscan
  · have hspelled := htext ⟨postgresql, .empty, false⟩ .start ⟨some "a.\"b", "\"c"⟩ rfl
    have hrelation := hread ⟨some "a.\"b", "\"c"⟩
    rwa [← Except.ok.inj (congrArg Prod.fst hspelled)] at hrelation

end SqlClause
