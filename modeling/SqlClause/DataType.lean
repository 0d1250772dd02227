import SqlClause.Text.Outline

/-!
# Types of SQL expressions

The type that an expression carries, its spelling in SQL (`toSql`), the family it belongs to
(`affinity`) and its outline, which is how a type stands in a cache key. A type that this library
does not know is carried by name; two names that differ only in the case of their ASCII letters are
of one family.

* `DataType.affinity_affinity`: the family of a family is itself.
-/

namespace SqlClause

/-- The type of an expression. -/
inductive DataType where
  /-- Nothing is known of the type. -/
  | null
  | smallint
  | integer
  | bigint
  | real
  | double
  | numeric (precision scale : Option UInt16)
  | char (length : Option UInt32)
  | varchar (length : Option UInt32)
  | text
  | blob
  | date
  | time
  | timestamp
  | boolean
  /-- An array, and the dialect whose array it is. -/
  | array (item : DataType) (dialect : Option String)
  /-- A type known by its name alone. -/
  | custom (name : String)
deriving DecidableEq, Repr, Inhabited

namespace DataType

/-! ## 1. Families -/

/-- The string with its ASCII letters in upper case. -/
def upperCase (s : String) : String := s.map Char.toUpper

/-- The family of a type: all integers, all other numbers, all character types, arrays by their
item's family, named types by their name in upper case. -/
def affinity : DataType → DataType
  | smallint | integer | bigint => integer
  | real | double | numeric _ _ => numeric none none
  | char _ | varchar _ | text => text
  | array item dialect => array item.affinity dialect
  | custom name => custom (upperCase name)
  | other => other

/-- The type is not known. -/
def isNull : DataType → Bool
  | null => true
  | _ => false

def isArray : DataType → Bool
  | array _ _ => true
  | _ => false

/-! ## 2. Spelling -/

private def sized (name : String) : Option UInt32 → String
  | none => name
  | some n => name ++ "(" ++ n.toNat.repr ++ ")"

/-- The type as SQL spells it. A scale counts only after a precision. -/
def toSql : DataType → String
  | null => "NULL"
  | smallint => "SMALLINT"
  | integer => "INTEGER"
  | bigint => "BIGINT"
  | real => "REAL"
  | double => "DOUBLE PRECISION"
  | numeric (some p) (some s) => "NUMERIC(" ++ p.toNat.repr ++ ", " ++ s.toNat.repr ++ ")"
  | numeric (some p) none => "NUMERIC(" ++ p.toNat.repr ++ ")"
  | numeric none _ => "NUMERIC"
  | char length => sized "CHAR" length
  | varchar length => sized "VARCHAR" length
  | text => "TEXT"
  | blob => "BLOB"
  | date => "DATE"
  | time => "TIME"
  | timestamp => "TIMESTAMP"
  | boolean => "BOOLEAN"
  | array item _ => item.toSql ++ "[]"
  | custom name => name

/-! ## 3. Outline -/

open Text in
/-- The type by its constructor, with everything it holds: different types have different outlines.
-/
def outline : DataType → String
  | null => "Null"
  | smallint => "Smallint"
  | integer => "Integer"
  | bigint => "Bigint"
  | real => "Real"
  | double => "Double"
  | numeric precision scale => outlineRecord "Numeric"
      [("precision", outlineOption (precision.map (·.toNat.repr))),
       ("scale", outlineOption (scale.map (·.toNat.repr)))]
  | char length => outlineApply "Char" (outlineOption (length.map (·.toNat.repr)))
  | varchar length => outlineApply "Varchar" (outlineOption (length.map (·.toNat.repr)))
  | text => "Text"
  | blob => "Blob"
  | date => "Date"
  | time => "Time"
  | timestamp => "Timestamp"
  | boolean => "Boolean"
  | array item dialect => outlineRecord "Array"
      [("item", item.outline), ("dialect", outlineOption (dialect.map quoted))]
  | custom name => outlineApply "Custom" (quoted name)

/-! ## 4. Types of text search -/

/-- The name of a text search configuration. -/
def regconfig : DataType := custom "REGCONFIG"

/-- A document prepared for text search. -/
def tsvector : DataType := custom "TSVECTOR"

/-- A text search query. -/
def tsquery : DataType := custom "TSQUERY"

def isRegconfig (t : DataType) : Bool := t.affinity == regconfig

def isTsquery (t : DataType) : Bool := t.affinity == tsquery

/-- An array of PostgreSQL. -/
def postgresArray (item : DataType) : DataType := array item (some "postgresql")

/-- An array of no particular dialect. -/
def plainArray (item : DataType) : DataType := array item none

/-! ## 5. Families of families -/

theorem toUpper_toUpper (c : Char) : c.toUpper.toUpper = c.toUpper := by
  unfold Char.toUpper
  split
  · rename_i h
    have h₁ := UInt32.le_iff_toNat_le.mp h.1
    have h₂ := UInt32.le_iff_toNat_le.mp h.2
    rw [dif_neg]
    rintro ⟨h₃, -⟩
    have h₃ := UInt32.le_iff_toNat_le.mp h₃
    have e₁ : 'a'.val.toNat = 97 := rfl
    have e₂ : 'z'.val.toNat = 122 := rfl
    have e₃ : ('A'.val - 'a'.val).toNat = 4294967264 := rfl
    rw [UInt32.toNat_add, e₃] at h₃
    omega
  · rfl

theorem upperCase_upperCase (s : String) : upperCase (upperCase s) = upperCase s := by
  rw [← String.toList_inj]
  simp only [upperCase, String.toList_map, List.map_map, Function.comp_def, toUpper_toUpper]

/-- **The family of a family is itself.** -/
theorem affinity_affinity (t : DataType) : t.affinity.affinity = t.affinity := by
  induction t with
  | array item dialect ih => exact congrArg (array · dialect) ih
  | custom name => exact congrArg custom (upperCase_upperCase name)
  | _ => rfl

end DataType

end SqlClause
