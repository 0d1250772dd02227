import SqlClause.Node.Replace
import SqlClause.Schema.Attach
import SqlClause.Schema.Exclude

/-!
# Copying tables

A copy of a table has the columns of its source under a new name. Each constraint is copied with
its expressions bound anew: a column of the old parent becomes the column of the same name of the
new table (`rebind`), and everything else stays. The copy of the constraint, with the listeners of
its source, is then attached like any other constraint. `copyExpression` binds a single expression
anew, by a walk that does not stop at the first column that is missing.

What the listeners have been told stays told if a later constraint cannot be copied, so a copy
yields the notices beside its outcome.
-/

namespace SqlClause

/-- The column of the target that stands for a column of the source. -/
def rebindColumn (source : Relation) (target : Table) (n : Node) : Except Error (Option Node) :=
  match n.clause with
  | .column c => if c.table = some source then some <$> target.require c.name else .ok none
  | _ => .ok none

/-- The expression with every column of the source replaced by the target's column of the same
name. Without a source or a target nothing is replaced. -/
def rebind (source : Option Relation) (target : Option Table) (n : Node) : Except Error Node :=
  match source, target with
  | some source, some target => n.replace (rebindColumn source target)
  | _, _ => .ok n

/-- The question of `rebindColumn`, for a walk that goes on after a failure and keeps the first. -/
def rebindColumnOn (source : Relation) (target : Table) (n : Node) :
    StateM (Option Error) (Option Node) := fun failure =>
  match rebindColumn source target n with
  | .ok answer => (answer, failure)
  | .error e => (none, failure.or (some e))

/-- The expression as `rebind` gives it, by a walk that comes to its end even if the target lacks a
column. -/
def copyExpression (source : Option Relation) (target : Option Table) (n : Node) :
    Except Error Node :=
  match source, target with
  | some source, some target =>
      match n.replace (rebindColumnOn source target) none with
      | (copy, none) => .ok copy
      | (_, some e) => .error e
  | _, _ => .ok n.copy

namespace CheckConstraint

/-- The constraint for another table, attached to none. -/
def copyTo (c : CheckConstraint) (target : Table) : Except Error CheckConstraint := do
  let condition ← rebind c.parent (some target) c.condition
  let copy := ofCondition condition
  return { copy with name := c.name, listeners := copy.listeners.append c.listeners }

end CheckConstraint

namespace ExcludeConstraint

/-- The argument from which the entry is built again, for another table. -/
def copyEntry (source : Option Relation) (target : Table) : Entry → Except Error Argument
  | .pending name => .ok (.value (.text name))
  | .resolved n => .element <$> rebind source (some target) n

/-- The constraint for another table, attached to none: it is built again from its entries. -/
def copyTo (c : ExcludeConstraint) (target : Table) : Except Error ExcludeConstraint := do
  let pairs ← c.elements.mapM fun e => do
    return (← copyEntry c.parent target e.expression, e.operator)
  let criterion ← c.criterion.mapM fun n => Argument.element <$> rebind c.parent (some target) n
  let copy ← build pairs { c.options with criterion }
  return { copy with listeners := copy.listeners.append c.listeners }

end ExcludeConstraint

/-- The constraint for another table, attached to none. -/
def Constraint.copyTo (c : Constraint) (target : Table) : Except Error Constraint :=
  match c with
  | check c => check <$> c.copyTo target
  | exclude c => exclude <$> c.copyTo target

namespace Table

/-- Copies the constraints to the table one by one, up to the first that cannot be copied. -/
def copyConstraints : List Constraint → Table → List Notice × Except Error Table
  | [], t => ([], .ok t)
  | c :: cs, t =>
      match c.copyTo t >>= t.append with
      | .error e => ([], .error e)
      | .ok (t, notices) =>
          let (later, outcome) := copyConstraints cs t
          (notices ++ later, outcome)

/-- The columns of the table under another name, in the same schema. -/
def copyColumns (t : Table) (name : String) : Table :=
  let copy : Table := ⟨name, t.schema, [], []⟩
  { copy with columns := t.columns.map (·.ofTable copy.relation) }

/-- The table under another name, in the same schema, and what the listeners are told. -/
def copyAs (t : Table) (name : String) : List Notice × Except Error Table :=
  copyConstraints t.constraints (t.copyColumns name)

end Table

end SqlClause
