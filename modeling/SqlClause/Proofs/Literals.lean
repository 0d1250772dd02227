import SqlClause.Compiler
import SqlClause.Proofs.Delimited

/-!
# Values in a text

A value that is written into a statement is read there by a reader that knows nothing of how it was
written. A text literal ends at the first quote that is not doubled, the digits of a blob end at the
closing quote, and an integer is a sign and digits. So no content of a value reaches into what
stands behind it, and apart from numbers with a fraction, which may be written like integers, no two
values have one literal.

* `readBytes_flatMap`: the digits of bytes are read back, two by two;
* `readInteger_repr`: so are integers of 64 bits, the extreme ones included;
* `readLiteral_inline`: the literal of a value is read back as the value;
* **`Value.inline_self_delimiting`**: literals are known by their texts.
-/

namespace SqlClause

open Text
open Value (apostrophe)

/-! ## 1. Bytes -/

/-- The value of a digit in base sixteen, where the letters are capital. -/
def hexValue? (c : Char) : Option Nat :=
  if '0' ≤ c ∧ c ≤ '9' then some (c.toNat - '0'.toNat)
  else if 'A' ≤ c ∧ c ≤ 'F' then some (c.toNat - 'A'.toNat + 10)
  else none

/-- Reads bytes of two digits each, up to the closing quote, with what is left to read. -/
def readBytes : List Char → Option (List UInt8 × List Char)
  | [] => none
  | [c] => if c = apostrophe then some ([], []) else none
  | high :: low :: rest =>
      if high = apostrophe then some ([], low :: rest)
      else do
        let byte := UInt8.ofNat (16 * (← hexValue? high) + (← hexValue? low))
        let (bytes, rest) ← readBytes rest
        return (byte :: bytes, rest)

/-- Reads a blob literal: a capital X and bytes between quotes. -/
def readBlob : List Char → Option (List UInt8 × List Char)
  | 'X' :: c :: rest => if c = apostrophe then readBytes rest else none
  | _ => none

/-- The sixteen digits are read as what they stand for, and none of them is a quote. -/
theorem hexValue?_digit {n : Nat} (h : n < 16) :
    hexValue? (Nat.digitChar n).toUpper = some n ∧ (Nat.digitChar n).toUpper ≠ apostrophe := by
  have hall : ∀ n < 16,
      hexValue? (Nat.digitChar n).toUpper = some n ∧ (Nat.digitChar n).toUpper ≠ apostrophe := by
    decide
  exact hall n h

theorem readBytes_closing (rest : List Char) :
    readBytes (apostrophe :: rest) = some ([], rest) := by
  cases rest with
  | nil => rw [readBytes, if_pos rfl]
  | cons c rest => rw [readBytes, if_pos rfl]

/-- **The digits of bytes are read back**, up to the closing quote. -/
theorem readBytes_flatMap (rest : List Char) : ∀ bytes : List UInt8,
    readBytes (bytes.flatMap Value.byteDigits ++ apostrophe :: rest) = some (bytes, rest)
  | [] => readBytes_closing rest
  | b :: bytes => by
      have hsize : b.toNat < 256 := b.toNat_lt
      obtain ⟨hhigh, hquote⟩ := hexValue?_digit (n := b.toNat / 16) (by omega)
      obtain ⟨hlow, -⟩ := hexValue?_digit (n := b.toNat % 16) (by omega)
      have hbyte : UInt8.ofNat (16 * (b.toNat / 16) + b.toNat % 16) = b := by
        rw [Nat.div_add_mod, UInt8.ofNat_toNat]
      show readBytes ((b.toNat / 16).digitChar.toUpper :: (b.toNat % 16).digitChar.toUpper ::
        (bytes.flatMap Value.byteDigits ++ apostrophe :: rest)) = _
      rw [readBytes, if_neg hquote, hhigh, hlow, readBytes_flatMap rest bytes]
      simp only [Option.bind_eq_bind, Option.bind_some, hbyte, Option.pure_def]

/-! ## 2. Integers -/

/-- Reads digits as a number. -/
def readNatural (cs : List Char) : Option Nat :=
  if !cs.isEmpty && cs.all Char.isDigit then some (Nat.ofDigitChars 10 cs 0) else none

/-- The integer of 64 bits with the value, if there is one. -/
def int64? (z : Int) : Option Int64 :=
  let n := Int64.ofInt z
  if n.toInt = z then some n else none

/-- Reads an integer of 64 bits: digits, with a sign in front of them if it is negative. -/
def readInteger : List Char → Option Int64
  -- the digits of the least integer are out of bounds without the sign
  | '-' :: cs => (readNatural cs).bind fun n => int64? (-n)
  | cs => (readNatural cs).bind fun n => int64? n

theorem readNatural_toDigits (n : Nat) : readNatural (Nat.toDigits 10 n) = some n := by
  have hdigits : (!(Nat.toDigits 10 n).isEmpty && (Nat.toDigits 10 n).all Char.isDigit) = true := by
    rw [Bool.and_eq_true, Bool.not_eq_true', List.isEmpty_eq_false_iff, List.all_eq_true]
    exact ⟨Nat.toDigits_ne_nil, fun c hc =>
      Nat.isDigit_of_mem_toDigits (by decide) (by decide) hc⟩
  rw [readNatural, if_pos hdigits, Nat.ofDigitChars_ten_toDigits]

theorem int64?_toInt (n : Int64) : int64? n.toInt = some n := by
  have hvalue : (Int64.ofInt n.toInt).toInt = n.toInt := by rw [Int64.ofInt_toInt]
  rw [int64?, if_pos hvalue, Int64.ofInt_toInt]

/-- What does not begin with a sign is read as digits. -/
theorem readInteger_of_head? {cs : List Char} (h : cs.head? ≠ some '-') :
    readInteger cs = (readNatural cs).bind fun n => int64? n := by
  unfold readInteger
  split
  · exact absurd rfl h
  · rfl

/-- A number begins with a digit. -/
theorem head?_toDigits (n : Nat) : ∃ c, (Nat.toDigits 10 n).head? = some c ∧ c.isDigit = true := by
  obtain ⟨c, cs, hcons⟩ := List.exists_cons_of_ne_nil (Nat.toDigits_ne_nil (n := n) (b := 10))
  have hc : c ∈ Nat.toDigits 10 n := by
    rw [hcons]
    exact List.mem_cons_self
  refine ⟨c, ?_, Nat.isDigit_of_mem_toDigits (b := 10) (n := n) (by decide) (by decide) hc⟩
  rw [hcons, List.head?_cons]

/-- The text of an integer is its digits, or a sign and its digits. -/
theorem toList_repr_cases (z : Int) :
    (∃ n : Nat, z = n ∧ z.repr.toList = Nat.toDigits 10 n) ∨
      ∃ n : Nat, z = -n ∧ z.repr.toList = '-' :: Nat.toDigits 10 n := by
  rw [Int.repr_eq_if]
  by_cases hz : 0 ≤ z
  · refine .inl ⟨z.toNat, (Int.toNat_of_nonneg hz).symm, ?_⟩
    rw [if_pos hz, Nat.toList_repr]
  · refine .inr ⟨(-z).toNat, by omega, ?_⟩
    rw [if_neg hz, String.toList_append, Nat.toList_repr]
    rfl

/-- An integer begins with a digit or a sign. -/
theorem head?_repr (z : Int) :
    ∃ c, z.repr.toList.head? = some c ∧ (c.isDigit = true ∨ c = '-') := by
  rcases toList_repr_cases z with ⟨n, -, htext⟩ | ⟨n, -, htext⟩
  · obtain ⟨c, hhead, hc⟩ := head?_toDigits n
    exact ⟨c, htext ▸ hhead, .inl hc⟩
  · exact ⟨'-', htext ▸ rfl, .inr rfl⟩

/-- **An integer of 64 bits is read back.** -/
theorem readInteger_repr (n : Int64) : readInteger n.toInt.repr.toList = some n := by
  rcases toList_repr_cases n.toInt with ⟨m, hm, htext⟩ | ⟨m, hm, htext⟩
  · have hunsigned : (Nat.toDigits 10 m).head? ≠ some '-' := by
      obtain ⟨c, hhead, hc⟩ := head?_toDigits m
      rw [hhead]
      intro h
      rw [Option.some.inj h] at hc
      exact absurd hc (by decide)
    rw [htext, readInteger_of_head? hunsigned, readNatural_toDigits, Option.bind_some, ← hm,
      int64?_toInt]
  · rw [htext, readInteger, readNatural_toDigits, Option.bind_some, ← hm, int64?_toInt]

/-! ## 3. Literals -/

/-- What has been read, if nothing is left. -/
def entire {α : Type} : Option (α × List Char) → Option α
  | some (a, []) => some a
  | _ => none

/-- Reads a literal. Its first character tells what it is: a text, a blob, or else one of three
words or an integer. -/
def readLiteral (cs : List Char) : Option Value :=
  if cs.head? = some apostrophe then (entire (scan apostrophe cs)).map (.text ∘ String.ofList)
  else if cs.head? = some 'X' then (entire (readBlob cs)).map .blob
  else if cs = "NULL".toList then some .null
  else if cs = "TRUE".toList then some (.bool true)
  else if cs = "FALSE".toList then some (.bool false)
  else (readInteger cs).map .int

/-- A text literal is read up to its end, and as the text. -/
theorem scan_inline {rest : List Char} (h : rest.head? ≠ some apostrophe) (s : String) :
    scan apostrophe ((Value.text s).inline.toList ++ rest) = some (s.toList, rest) :=
  scan_delimited h s

/-- A blob literal is read up to its end, and as the bytes. -/
theorem readBlob_inline (rest : List Char) (bytes : List UInt8) :
    readBlob ((Value.blob bytes).inline.toList ++ rest) = some (bytes, rest) := by
  have htext : (Value.blob bytes).inline.toList ++ rest =
      'X' :: apostrophe :: (bytes.flatMap Value.byteDigits ++ apostrophe :: rest) := by
    simp [Value.inline, apostrophe]
  rw [htext, readBlob, if_pos rfl, readBytes_flatMap]

/-- What begins like an integer is neither a text nor a blob nor a word. -/
theorem readLiteral_of_head? {cs : List Char} {c : Char} (hhead : cs.head? = some c)
    (hc : c.isDigit = true ∨ c = '-') : readLiteral cs = (readInteger cs).map .int := by
  have hne : ∀ d : Char, ¬ (d.isDigit = true ∨ d = '-') → cs.head? ≠ some d := by
    intro d hd h
    obtain rfl := Option.some.inj (hhead.symm.trans h)
    exact hd hc
  have hword : ∀ word : List Char,
      (∃ d ∈ word.head?, ¬ (d.isDigit = true ∨ d = '-')) → cs ≠ word := by
    rintro word ⟨d, hmem, hd⟩ rfl
    exact hne d hd hmem
  rw [readLiteral, if_neg (hne _ (by decide)), if_neg (hne _ (by decide)),
    if_neg (hword _ ⟨'N', rfl, by decide⟩), if_neg (hword _ ⟨'T', rfl, by decide⟩),
    if_neg (hword _ ⟨'F', rfl, by decide⟩)]

/-- **The literal of a value is read back as the value**, but for numbers with a fraction. -/
theorem readLiteral_inline : ∀ {v : Value}, (∀ x, v ≠ .float x) →
    readLiteral v.inline.toList = some v
  | .null, _ => by decide
  | .bool true, _ => by decide
  | .bool false, _ => by decide
  | .int n, _ => by
      obtain ⟨c, hhead, hc⟩ := head?_repr n.toInt
      show readLiteral n.toInt.repr.toList = _
      rw [readLiteral_of_head? hhead hc, readInteger_repr, Option.map_some]
  | .float x, h => absurd rfl (h x)
  | .text s, _ => by
      have hread : scan apostrophe (Value.text s).inline.toList = some (s.toList, []) :=
        scan_delimited_to_end s
      have hhead : (Value.text s).inline.toList.head? = some apostrophe := by
        simp [Value.inline, delimited]
      rw [readLiteral, if_pos hhead, hread]
      show some (Value.text (String.ofList s.toList)) = _
      rw [String.ofList_toList]
  | .blob bytes, _ => by
      have hread := readBlob_inline [] bytes
      have hhead : (Value.blob bytes).inline.toList.head? = some 'X' := by
        simp [Value.inline]
      rw [List.append_nil] at hread
      rw [readLiteral, hhead, if_neg (by decide), if_pos rfl, hread]
      rfl

/-- **Literals are known by their texts.** A text literal is read as the text and up to its own end,
whatever stands behind it, unless that is one more quote. A blob literal is read as its bytes, and
the literal of an integer as the integer. No two values that are no numbers with a fraction have one
literal. These are the texts that a compiler writes for values that it does not bind. -/
theorem Value.inline_self_delimiting :
    (∀ (s : String) (rest : List Char), rest.head? ≠ some apostrophe →
      scan apostrophe ((text s).inline.toList ++ rest) = some (s.toList, rest)) ∧
    (∀ (bytes : List UInt8) (rest : List Char),
      readBlob ((blob bytes).inline.toList ++ rest) = some (bytes, rest)) ∧
    (∀ n : Int64, readInteger (int n).inline.toList = some n) ∧
    (∀ v w : Value, (∀ x, v ≠ float x) → (∀ x, w ≠ float x) → v.inline = w.inline → v = w) ∧
    ∀ (c : Compiler) (v : Value), c.settings.literalBinds = true ∨ c.progress.inDdl = true →
      c.bind v = (.ok v.inline, c) := by
  refine ⟨fun s rest h => scan_inline h s, fun bytes rest => readBlob_inline rest bytes,
    readInteger_repr, fun v w hv hw h => ?_, fun c v h => ?_⟩
  · have hread := readLiteral_inline hv
    rw [h, readLiteral_inline hw] at hread
    exact (Option.some.inj hread).symm
  · have hinline : (c.settings.literalBinds || c.progress.inDdl) = true := by
      rw [Bool.or_eq_true]
      exact h
    show c.run (RenderM.bindValue v) = _
    rw [Compiler.run, RenderM.bindValue_apply, if_pos hinline]

/-- Quotes at both ends of a text that stands before another one, bytes of two digits each, the
least integer, and a text that is a word. -/
theorem Value.inline_self_delimiting_quotes :
    scan apostrophe "'''; --''' || 'x'".toList = some ("'; --'".toList, " || 'x'".toList) ∧
    readBlob "X'0FA0'".toList = some ([15, 160], []) ∧
    readInteger "-9223372036854775808".toList = some (-9223372036854775808) ∧
    (text "NULL").inline ≠ null.inline := by
  obtain ⟨htext, hblob, hint, hinj, -⟩ := inline_self_delimiting
  refine ⟨htext "'; --'" " || 'x'".toList (by decide), ?_, ?_, fun h => ?_⟩
  · exact hblob [15, 160] []
  · exact hint (-9223372036854775808)
  · exact Value.noConfusion (hinj _ _ (fun _ => Value.noConfusion) (fun _ => Value.noConfusion) h)

end SqlClause
