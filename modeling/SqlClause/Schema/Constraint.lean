import SqlClause.Coercion

/-!
# Constraints of a table

A constraint of a table is a condition on every row (`CheckConstraint`) or the exclusion of rows
that clash in pairs (`ExcludeConstraint`). It may have a name and belongs to at most one table, its
parent. Listeners can be registered that are told of its attachment, before and after.
-/

namespace SqlClause

/-- Whether a listener is told before the constraint has its parent, or after. -/
inductive Phase where
  | before | after
deriving DecidableEq, Repr

/-- The listeners of a constraint, by name, in the order of their registration. -/
structure Listeners where
  before : List String
  after : List String
deriving DecidableEq, Repr

namespace Listeners

def none : Listeners := ⟨[], []⟩

def add (ls : Listeners) (phase : Phase) (listener : String) : Listeners :=
  match phase with
  | .before => { ls with before := ls.before ++ [listener] }
  | .after => { ls with after := ls.after ++ [listener] }

/-- The listeners followed by those of another constraint. -/
def append (ls others : Listeners) : Listeners :=
  ⟨ls.before ++ others.before, ls.after ++ others.after⟩

def size (ls : Listeners) : Nat := ls.before.length + ls.after.length

def isEmpty (ls : Listeners) : Bool := ls.size == 0

/-- The listeners by their numbers. -/
def outline (ls : Listeners) : String :=
  Text.outlineRecord "ConstraintEvents"
    [("before_parent_attach", ls.before.length.repr), ("after_parent_attach", ls.after.length.repr)]

end Listeners

/-- A condition on every row. -/
structure CheckConstraint where
  name : Option String
  condition : Node
  parent : Option Relation
  listeners : Listeners

/-- One entry of an exclusion: an expression and the operator by which two rows are compared in it.
-/
structure ExcludeElement where
  expression : Entry
  /-- The column that the entry is about. -/
  name : Option String
  operator : String

/-- The exclusion of two rows for which every element's operator holds. -/
structure ExcludeConstraint where
  elements : List ExcludeElement
  /-- The columns that the elements are about, in their order. -/
  columns : List Entry
  /-- The operator for every column; of two elements with one column the later one counts. -/
  operators : NameMap String
  name : Option String
  deferrable : Option Bool
  initially : Option String
  /-- The index method. -/
  method : String
  /-- The rows to which the exclusion is restricted. -/
  criterion : Option Node
  /-- The operator classes, by column. -/
  classes : NameMap String
  parent : Option Relation
  listeners : Listeners

/-- A constraint of a table. -/
inductive Constraint where
  | check (c : CheckConstraint)
  | exclude (c : ExcludeConstraint)

namespace CheckConstraint

/-- A condition that is attached to no table. -/
def ofCondition (condition : Node) : CheckConstraint := ⟨none, condition, none, .none⟩

/-- A condition given as SQL text or as an expression. -/
def read (a : Argument) : Except Error CheckConstraint := ofCondition <$> coerce .option a

def named (c : CheckConstraint) (name : String) : CheckConstraint := { c with name := some name }

end CheckConstraint

namespace Constraint

/-- The name of the constraint's kind. -/
def tag : Constraint → String
  | check _ => "check_constraint"
  | exclude _ => "exclude_constraint"

def name : Constraint → Option String
  | check c => c.name
  | exclude c => c.name

def parent : Constraint → Option Relation
  | check c => c.parent
  | exclude c => c.parent

def listeners : Constraint → Listeners
  | check c => c.listeners
  | exclude c => c.listeners

def setListeners (c : Constraint) (ls : Listeners) : Constraint :=
  match c with
  | check c => check { c with listeners := ls }
  | exclude c => exclude { c with listeners := ls }

/-- Registers one more listener. -/
def listen (c : Constraint) (phase : Phase) (listener : String) : Constraint :=
  c.setListeners (c.listeners.add phase listener)

/-- The expressions of the constraint: no pending name is among them. -/
def children : Constraint → List Node
  | check c => [c.condition]
  | exclude c => c.elements.filterMap (·.expression.node?) ++ c.criterion.toList

def isCheck : Constraint → Bool
  | check _ => true
  | exclude _ => false

end Constraint

end SqlClause
