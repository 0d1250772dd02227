import SqlClause.Text.Quoted

/-!
# Outlines: values written by their constructors

The outline of a value names its constructor and lists what it holds: `Name`, `Name(a)`, `Name {
field: a, other: b }`, `Some(a)` or `None` for what may be absent, `[a, b]` for a list. Strings
stand in their quoted form. The outline of a type is part of every cache key, so these few forms
are fixed here once.
-/

namespace SqlClause.Text

/-- The items of a list between brackets. -/
def outlineList (items : List String) : String := "[" ++ ", ".intercalate items ++ "]"

/-- A constructor with what it holds. -/
def outlineApply (name item : String) : String := name ++ "(" ++ item ++ ")"

/-- What may be absent. -/
def outlineOption : Option String → String
  | none => "None"
  | some item => outlineApply "Some" item

/-- One field of a record, after its name. -/
def outlineField (name item : String) : String := name ++ ": " ++ item

/-- A record with all its fields. -/
def outlineRecord (name : String) (fields : List (String × String)) : String :=
  name ++ " \x7b " ++ ", ".intercalate (fields.map fun f => outlineField f.1 f.2) ++ " \x7d"

/-- A record that shows some of its fields and says that there are more. -/
def outlinePartial (name : String) (fields : List (String × String)) : String :=
  name ++ " \x7b " ++ String.join (fields.map fun f => outlineField f.1 f.2 ++ ", ") ++ ".. \x7d"

/-- A truth value. -/
def outlineBool : Bool → String
  | true => "true"
  | false => "false"

end SqlClause.Text
