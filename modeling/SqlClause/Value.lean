import SqlClause.Decimal.Layout
import SqlClause.DataType

/-!
# Values

The values that a statement binds. A value has a type, a text that can stand in a statement in its
place (`inline`), and an outline. Values are compared by `equals`: numbers with a fraction compare
as IEEE numbers, everything else by identity.

* `Value.equals_self`: only a NaN differs from itself.
-/

namespace SqlClause

/-- A value bound by a statement. -/
inductive Value where
  | null
  | bool (b : Bool)
  | int (n : Int64)
  | float (x : Binary64)
  | text (s : String)
  | blob (bytes : List UInt8)
deriving DecidableEq, Inhabited

namespace Value

/-! ## 1. Comparison -/

/-- The values are of one kind and equal there. -/
def equals : Value → Value → Bool
  | null, null => true
  | bool a, bool b => a == b
  | int m, int n => m == n
  | float x, float y => x.equals y
  | text s, text t => s == t
  | blob as, blob bs => as == bs
  | _, _ => false

def isNaN : Value → Bool
  | float x => x.isNaN
  | _ => false

theorem equals_self (v : Value) : v.equals v = !v.isNaN := by
  cases v <;> simp [equals, isNaN, Binary64.equals]

/-! ## 2. What is known of a value -/

/-- The type that a value has unless another is asked for. -/
def dataType : Value → DataType
  | null => .null
  | bool _ => .boolean
  | int _ => .integer
  | float _ => .double
  | text _ => .varchar none
  | blob _ => .blob

/-- The words for a value of this kind in an error message. -/
def kind : Value → String
  | null => "NULL"
  | bool _ => "boolean literal"
  | int _ => "integer literal"
  | float _ => "float literal"
  | text _ => "string literal"
  | blob _ => "blob literal"

/-! ## 3. Values in statement text -/

/-- The two hexadecimal digits of a byte, in capital letters. -/
def byteDigits (b : UInt8) : List Char :=
  [(Nat.digitChar (b.toNat / 16)).toUpper, (Nat.digitChar (b.toNat % 16)).toUpper]

/-- The mark around a text literal. -/
def apostrophe : Char := '\x27'

/-- The SQL literal for a value: a text between single quotes, which are doubled inside it, and the
bytes of a blob in hexadecimal. -/
def inline : Value → String
  | null => "NULL"
  | bool true => "TRUE"
  | bool false => "FALSE"
  | int n => n.toInt.repr
  | float x => Decimal.text .plain x
  | text s => Text.delimited apostrophe s
  | blob bytes => "X'" ++ String.ofList (bytes.flatMap byteDigits) ++ "'"

/-! ## 4. Outline -/

open Text in
/-- The value by its constructor. -/
def outline : Value → String
  | null => "Null"
  | bool b => outlineApply "Bool" (outlineBool b)
  | int n => outlineApply "Int" n.toInt.repr
  | float x => outlineApply "Float" (Decimal.text .outline x)
  | text s => outlineApply "Text" (quoted s)
  | blob bytes => outlineApply "Blob" (outlineList (bytes.map (·.toNat.repr)))

end Value

end SqlClause
