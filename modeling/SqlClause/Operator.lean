/-!
# Operators and ordering modifiers

The operators that join or precede clauses, and the modifiers that follow a term of an ordering.
The precedence of an operator decides where parentheses are needed; a higher one binds tighter.
-/

namespace SqlClause

/-- An operator between two clauses, before one, or between the members of a list. -/
inductive Operator where
  | add | sub | mul | div | mod
  | eq | notEq | lt | ltEq | gt | gtEq
  | and | or | not
  | concat | like
  /-- The full-text match. -/
  | textMatch
  /-- The separator of lists. -/
  | comma
deriving DecidableEq, Repr, Inhabited

namespace Operator

/-- Every operator, once. -/
def all : List Operator :=
  [add, sub, mul, div, mod, eq, notEq, lt, ltEq, gt, gtEq, and, or, not, concat, like, textMatch,
    comma]

theorem mem_all (o : Operator) : o ∈ all := by
  cases o <;> decide

/-- The operator in SQL. -/
def sql : Operator → String
  | add => "+"
  | sub => "-"
  | mul => "*"
  | div => "/"
  | mod => "%"
  | eq => "="
  | notEq => "!="
  | lt => "<"
  | ltEq => "<="
  | gt => ">"
  | gtEq => ">="
  | and => "AND"
  | or => "OR"
  | not => "NOT"
  | concat => "||"
  | like => "LIKE"
  | textMatch => "@@"
  | comma => ","

/-- Different operators are written differently. -/
theorem sql_inj {o p : Operator} (h : o.sql = p.sql) : o = p := by
  revert h
  cases o <;> cases p <;> decide

/-- How tightly the operator binds its operands. -/
def precedence : Operator → Nat
  | comma => 0
  | or => 1
  | and => 2
  | not => 3
  | eq | notEq | lt | ltEq | gt | gtEq => 4
  | like | textMatch => 5
  | add | sub | concat => 8
  | mul | div | mod => 9

/-- The operator yields a truth value. -/
def yieldsBoolean : Operator → Bool
  | eq | notEq | lt | ltEq | gt | gtEq | and | or | not | like | textMatch => true
  | add | sub | mul | div | mod | concat | comma => false

/-- The operator between two members of a list or two operands, with its blanks: a comma leans on
what stands before it. -/
def separator : Operator → String
  | comma => ", "
  | o => " " ++ o.sql ++ " "

end Operator

/-- What may follow a term of an ordering. -/
inductive Modifier where
  | asc | desc | nullsFirst | nullsLast
deriving DecidableEq, Repr, Inhabited

/-- The modifier in SQL. -/
def Modifier.sql : Modifier → String
  | asc => "ASC"
  | desc => "DESC"
  | nullsFirst => "NULLS FIRST"
  | nullsLast => "NULLS LAST"

theorem Modifier.sql_inj {m n : Modifier} (h : m.sql = n.sql) : m = n := by
  revert h
  cases m <;> cases n <;> decide

end SqlClause
