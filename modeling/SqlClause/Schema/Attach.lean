import SqlClause.Schema.Table

/-!
# Attaching constraints

A constraint is attached to a table once. All its pending names are looked up first; only if the
table has them all is anything changed and any listener told, so a failed attachment leaves no
trace. The listeners of the first phase see the constraint as it was, those of the second as it has
become; for both, the table does not have the constraint yet.

* `Constraint.attach_of_parent`: there is no second attachment.
-/

namespace SqlClause

/-- What a listener is told: the constraint and the table as they are at that moment. -/
structure Notice where
  phase : Phase
  listener : String
  constraint : Constraint
  table : Table

/-- The entry, resolved against the table. -/
def Entry.settle (e : Entry) (t : Table) : Except Error Entry := .resolved <$> t.resolve e

namespace ExcludeConstraint

/-- The constraint as one of the table, with all its entries resolved. -/
def settle (c : ExcludeConstraint) (t : Table) : Except Error ExcludeConstraint := do
  let elements ← c.elements.mapM fun e => do return { e with expression := ← e.expression.settle t }
  let columns ← c.columns.mapM (·.settle t)
  return { c with elements, columns, parent := some t.relation }

end ExcludeConstraint

namespace Constraint

/-- The constraint as one of the table. -/
def settle (c : Constraint) (t : Table) : Except Error Constraint :=
  match c with
  | check c => .ok (check { c with parent := some t.relation })
  | exclude c => exclude <$> c.settle t

/-- Attaches the constraint to the table, with what the listeners are told. -/
def attach (c : Constraint) (t : Table) : Except Error (Constraint × List Notice) :=
  match c.parent with
  | some parent => .error (.alreadyAttached parent.name)
  | none => do
      let attached ← c.settle t
      let before := c.listeners.before.map (⟨.before, ·, c, t⟩)
      let after := c.listeners.after.map (⟨.after, ·, attached, t⟩)
      return (attached, before ++ after)

/-- **There is no second attachment.** -/
theorem attach_of_parent {c : Constraint} {parent : Relation} (h : c.parent = some parent)
    (t : Table) : c.attach t = .error (.alreadyAttached parent.name) := by
  simp [attach, h]

end Constraint

/-- The table with the constraint attached to it. -/
def Table.append (t : Table) (c : Constraint) : Except Error (Table × List Notice) := do
  let (attached, notices) ← c.attach t
  return (t.push attached, notices)

end SqlClause
