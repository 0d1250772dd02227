import SqlClause.Node.Basic

/-!
# What a node is, as an operand

Three facts about a node decide how it may be combined: the type of the value it yields
(`dataType`), whether it yields a value of a column at all (`isColumnElement`), and whether it
needs parentheses beside a given operator (`needsGrouping`). Wrappers without a type of their own
(parentheses, labels, orderings) pass on the type of what they wrap; a re-typed element needs
parentheses exactly where the element does.
-/

namespace SqlClause

namespace Clause

/-- The type of a clause, from the types of its parts. -/
def dataType : Clause DataType → DataType
  | column c => c.type
  | bind p => p.type
  | keyword k => k.dataType
  | binary _ _ _ type => type
  | unary _ (some .not) _ => .boolean
  | unary element _ _ => element
  | grouping element => element
  | function _ _ type => type
  | cast _ type => type
  | typeCoerce _ type => type
  | label _ element => element
  | orderedAggregate _ type _ => type
  | text _ | list _ _ | select _ | hint _ | distinctOn _ | custom _ _ => .null

/-- Whether a clause yields a value of a column, from the same of its parts. -/
def isColumnElement : Clause Bool → Bool
  | grouping element => element
  | column _ | bind _ | keyword _ | binary .. | unary .. | function .. | cast .. | typeCoerce ..
  | label .. | orderedAggregate .. => true
  | text _ | list .. | select _ | hint _ | distinctOn _ | custom .. => false

/-- Whether a clause needs parentheses beside the operator `against`, from the same of its parts.
What binds looser than `against` needs them; SQL text needs them everywhere but in a list. -/
def needsGrouping (against : Operator) : Clause Bool → Bool
  | text _ => against != .comma
  | binary _ op _ _ => decide (op.precedence < against.precedence)
  | unary _ (some op) none => decide (op.precedence < against.precedence)
  | list clauses op => decide (1 < clauses.length) && decide (op.precedence < against.precedence)
  | typeCoerce element _ => element
  | _ => false

end Clause

namespace Node

/-- The type of the value that the node yields. -/
def dataType : Node → DataType := fold fun _ c => c.dataType

/-- The node yields a value of a column. -/
def isColumnElement : Node → Bool := fold fun _ c => c.isColumnElement

/-- The node needs parentheses beside the operator; beside none, nothing does. -/
def needsGrouping (n : Node) : Option Operator → Bool
  | none => false
  | some against => n.fold fun _ c => c.needsGrouping against

theorem dataType_mk (c : Clause Node) : (mk c).dataType = (c.map dataType).dataType := fold_mk ..

theorem isColumnElement_mk (c : Clause Node) :
    (mk c).isColumnElement = (c.map isColumnElement).isColumnElement := fold_mk ..

theorem needsGrouping_some (c : Clause Node) (o : Operator) :
    (mk c).needsGrouping (some o) = (c.map (needsGrouping · (some o))).needsGrouping o :=
  fold_mk (fun _ c => c.needsGrouping o) c

@[simp] theorem needsGrouping_none (n : Node) : n.needsGrouping none = false := rfl

end Node

end SqlClause
