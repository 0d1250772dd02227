/-!
# Roles and errors

What a caller's argument is to become decides how it is read: the same string is a value to be
bound, the text of a column, SQL text, or the name of a column of the table to come. An argument
that cannot play its role is one of the ways in which building, attaching or rendering can fail.
`Error` has all of them by their causes, with the message for each. They are mistakes of the caller;
the same input always fails in the same way.
-/

namespace SqlClause

/-! ## 1. Roles -/

/-- What an argument is to become. -/
inductive Role where
  /-- Any expression that yields a value of a column. -/
  | expression
  /-- A term of `ORDER BY`, `GROUP BY` or `DISTINCT ON`. -/
  | byOf
  /-- A condition or an option on its own. -/
  | option
  /-- A column or expression inside a constraint. -/
  | ddl
deriving DecidableEq, Repr

namespace Role

/-- Every role, once. -/
def all : List Role := [expression, byOf, option, ddl]

/-- The words for the role in an error message. -/
def description : Role → String
  | expression => "expression role"
  | byOf => "ORDER BY/OF role"
  | option => "statement option role"
  | ddl => "DDL constraint column role"

end Role

/-! ## 2. Errors -/

/-- A list that must not be empty. -/
inductive RequiredList where
  | excludeElements
  | orderByTerms
  | distinctOnTerms
deriving DecidableEq, Repr

/-- Why an argument cannot play a role. -/
inductive Refusal where
  /-- It is a clause that yields no value of a column. -/
  | notColumn
  /-- It is a value, and the role takes none of its kind. -/
  | notAcceptedLiteral
deriving DecidableEq, Repr

/-- The cause of a failure. -/
inductive Error where
  /-- The list must not be empty and is. -/
  | empty (list : RequiredList)
  /-- The argument, described by `found`, cannot play the role. -/
  | coercion (role : Role) (found : String) (reason : Refusal)
  /-- `DISTINCT ON` is asked for by the statement and by an extension. -/
  | distinctOnConflict
  /-- The table has no such column. -/
  | columnNotFound (table column : String)
  /-- The constraint belongs to the table already. -/
  | alreadyAttached (table : String)
  /-- The name cannot be that of an index method. -/
  | invalidIndexMethod (name : String)
  /-- No rule is registered for clauses or constraints with the tag. -/
  | noRule (tag : String)
  /-- The rule registered for the tag is for clauses of another kind. -/
  | wrongClause (tag : String)
  /-- The rule registered for the tag is for constraints of another kind. -/
  | wrongConstraint (tag : String)
deriving DecidableEq, Repr

def RequiredList.message : RequiredList → String
  | excludeElements => "an EXCLUDE constraint requires at least one element"
  | orderByTerms => "at least one ORDER BY element is required"
  | distinctOnTerms => "DISTINCT ON requires at least one expression"

def Refusal.message : Refusal → String
  | notColumn => "expected a column expression"
  | notAcceptedLiteral => "literal values are not accepted here"

namespace Error

private def unsupported (what : String) : String := "no renderer registered for '" ++ what ++ "'"

/-- The message for a failure. -/
def message : Error → String
  | empty list => list.message
  | coercion role found reason =>
      "cannot coerce " ++ found ++ " for " ++ role.description ++ ": " ++ reason.message
  | distinctOnConflict =>
      "conflicting statement options: DISTINCT ON cannot be set both by a syntax extension and "
        ++ "by the legacy distinct_on() shortcut"
  | columnNotFound table column => "table '" ++ table ++ "' has no column named '" ++ column ++ "'"
  | alreadyAttached table => "constraint is already attached to table '" ++ table ++ "'"
  | invalidIndexMethod name => "invalid argument: invalid index method '" ++ name ++ "'"
  | noRule tag => unsupported tag
  | wrongClause tag =>
      unsupported ("renderer for '" ++ tag ++ "' received an unexpected node type")
  | wrongConstraint tag =>
      unsupported ("renderer for '" ++ tag ++ "' received an unexpected constraint type")

end Error

end SqlClause
