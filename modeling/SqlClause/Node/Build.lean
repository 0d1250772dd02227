import SqlClause.Node.Typing

/-!
# Building expressions

Operators put parentheses around an operand exactly where it needs them beside the operator, so the
tree that is built can be written out flat. A comparison is a truth value; any other operator
yields the type of its left operand.
-/

namespace SqlClause

namespace Node

/-! ## 1. Leaves -/

/-- A column of no particular table. -/
def column (name : String) : Node := ⟨.column ⟨name, none, .null, false⟩⟩

/-- A column of a table. -/
def tableColumn (table name : String) (type : DataType) : Node :=
  ⟨.column ⟨name, some (.unqualified table), type, false⟩⟩

/-- SQL text in the place of a column. -/
def literalColumn (sql : String) : Node := ⟨.column ⟨sql, none, .null, true⟩⟩

/-- A bound value, of its own type unless another is given. -/
def bind (key : Option String) (value : Value) (type : Option DataType) : Node :=
  ⟨.bind ⟨key, value, type.getD value.dataType⟩⟩

/-- A bound value without a name. -/
def literal (value : Value) : Node := bind none value none

def text (sql : String) : Node := ⟨.text sql⟩

def keyword (k : Keyword) : Node := ⟨.keyword k⟩

/-- The word for a truth value. -/
def truth (b : Bool) : Node := keyword (if b then .true else .false)

/-! ## 2. Parentheses -/

def grouping (n : Node) : Node := ⟨.grouping n⟩

/-- The node, in parentheses if it needs them beside the operator. -/
def selfGroup (n : Node) (against : Option Operator) : Node :=
  if n.needsGrouping against then n.grouping else n

/-! ## 3. Operators and wrappers -/

/-- Two nodes joined by an operator. -/
def op (left : Node) (o : Operator) (right : Node) : Node :=
  ⟨.binary (left.selfGroup (some o)) o (right.selfGroup (some o))
    (if o.yieldsBoolean then .boolean else left.dataType)⟩

/-- The negation of a condition. -/
def not (n : Node) : Node := ⟨.unary (n.selfGroup (some .not)) (some .not) none⟩

/-- A term of an ordering, with its modifier. -/
def modified (n : Node) (modifier : Modifier) : Node := ⟨.unary n none (some modifier)⟩

def list (clauses : List Node) (o : Operator) : Node := ⟨.list clauses o⟩

def commaList (clauses : List Node) : Node := list clauses .comma

def function (name : String) (arguments : List Node) (type : DataType) : Node :=
  ⟨.function name arguments type⟩

def cast (n : Node) (type : DataType) : Node := ⟨.cast n type⟩

/-- The node as one of another type. -/
def typeCoerce (n : Node) (type : DataType) : Node := ⟨.typeCoerce n type⟩

def label (n : Node) (name : String) : Node := ⟨.label name n⟩

@[simp] theorem selfGroup_none (n : Node) : n.selfGroup none = n := rfl

end Node

end SqlClause
