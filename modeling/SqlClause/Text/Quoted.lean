import SqlClause.Text.Unprintable

/-!
# Quoted texts

A text can stand between two marks in two ways. In a delimited text a mark inside it is written
twice; string literals and quoted identifiers are of this form. In the quoted form of a string,
which stands between double quotes, the quote and the backslash are written after a backslash, four
controls have a letter of their own, and a character that does not print by itself is written by
its number; every other character stands for itself, the single quote included.

* `doubled_append`, `quoteChars_append`: both go character by character, so they commute with
  concatenation;
* `escape_ne_nil`: no character is lost.
-/

namespace SqlClause.Text

/-! ## 1. Delimited texts -/

/-- The characters with every `mark` written twice. -/
def doubled (mark : Char) (cs : List Char) : List Char :=
  cs.flatMap fun c => if c = mark then [mark, mark] else [c]

/-- The text between two marks. -/
def delimited (mark : Char) (s : String) : String :=
  String.ofList (mark :: doubled mark s.toList ++ [mark])

@[simp] theorem doubled_nil (mark : Char) : doubled mark [] = [] := rfl

@[simp] theorem doubled_cons (mark c : Char) (cs : List Char) :
    doubled mark (c :: cs) = (if c = mark then [mark, mark] else [c]) ++ doubled mark cs := rfl

theorem doubled_append (mark : Char) (cs ds : List Char) :
    doubled mark (cs ++ ds) = doubled mark cs ++ doubled mark ds := by
  simp [doubled]

/-! ## 2. Quoted forms -/

/-- The digits of a number in base sixteen, in small letters and without leading zeros. -/
def hexDigits (n : Nat) : List Char := Nat.toDigits 16 n

/-- The form in which one character stands between the quotes. -/
def escape (c : Char) : List Char :=
  if c = '\x00' then ['\\', '0']
  else if c = '\t' then ['\\', 't']
  else if c = '\r' then ['\\', 'r']
  else if c = '\n' then ['\\', 'n']
  else if c = '"' ∨ c = '\\' then ['\\', c]
  else if isUnprintable c then ['\\', 'u', '\x7b'] ++ hexDigits c.toNat ++ ['\x7d']
  else [c]

/-- The characters of a text, each in its form between the quotes. -/
def quoteChars (cs : List Char) : List Char := cs.flatMap escape

/-- The quoted form of a string. -/
def quoted (s : String) : String := "\"" ++ String.ofList (quoteChars s.toList) ++ "\""

@[simp] theorem quoteChars_nil : quoteChars [] = [] := rfl

@[simp] theorem quoteChars_cons (c : Char) (cs : List Char) :
    quoteChars (c :: cs) = escape c ++ quoteChars cs := rfl

theorem quoteChars_append (cs ds : List Char) :
    quoteChars (cs ++ ds) = quoteChars cs ++ quoteChars ds := by
  simp [quoteChars]

/-- Every character leaves a trace in the quoted form. -/
theorem escape_ne_nil (c : Char) : escape c ≠ [] := by
  unfold escape
  repeat' split
  all_goals simp

end SqlClause.Text
