import SqlClause.Schema.Attach

/-!
# Attaching in place

Whoever holds a constraint can attach it in place, and try another table if that fails. A constraint
is attached step by step: it must not have a parent, its names are looked up, the listeners of the
first phase are told, it is changed, and the listeners of the second phase are told. A step that
fails ends the attachment, and whatever was changed or told before it would stay so. What comes of
all the steps together is `Constraint.attach`.

A table takes a constraint by attaching it and adding it to its list.
-/

namespace SqlClause

/-- The listeners of a phase. -/
def Listeners.of (ls : Listeners) : Phase → List String
  | .before => ls.before
  | .after => ls.after

/-- The element with its entry resolved against the table. -/
def ExcludeElement.settle (e : ExcludeElement) (t : Table) : Except Error ExcludeElement := do
  return { e with expression := ← e.expression.settle t }

/-- What a caller holds, and what the listeners have been told so far. -/
structure Held (α : Type) where
  value : α
  told : List Notice

/-- Steps that change what is held and can fail. A failure undoes nothing. -/
abbrev HoldM (α : Type) := ExceptT Error (StateM (Held α))

namespace HoldM

variable {α : Type}

/-- What is held, as it is now. -/
def current : HoldM α α := return (← get).value

def change (f : α → α) : HoldM α Unit := modify fun h => { h with value := f h.value }

/-- Tells the listeners of a phase about the constraint as it is now. -/
def tell (constraint : α → Constraint) (phase : Phase) (t : Table) : HoldM α Unit :=
  modify fun h =>
    let c := constraint h.value
    { h with told := h.told ++ (c.listeners.of phase).map (⟨phase, ·, c, t⟩) }

/-- There must not be a parent yet. -/
def requireFree : Option Relation → HoldM α Unit
  | some parent => throw (.alreadyAttached parent.name)
  | none => return ()

/-- Does the steps for constraints of one kind with a constraint of that kind. -/
def asConstraint (constraint : α → Constraint) (value : α) (steps : HoldM α Unit) :
    HoldM Constraint Unit := fun h =>
  let (outcome, held) := steps ⟨value, h.told⟩
  (outcome, ⟨constraint held.value, held.told⟩)

end HoldM

open HoldM

/-- Attaches a condition to the table. -/
def CheckConstraint.setParent (t : Table) : HoldM CheckConstraint Unit := do
  requireFree (← current).parent
  tell .check .before t
  change fun c => { c with parent := some t.relation }
  tell .check .after t

/-- Attaches an exclusion to the table. All names are looked up before anything is changed. -/
def ExcludeConstraint.setParent (t : Table) : HoldM ExcludeConstraint Unit := do
  let c ← current
  requireFree c.parent
  let elements ← MonadExcept.ofExcept (c.elements.mapM (·.settle t))
  let columns ← MonadExcept.ofExcept (c.columns.mapM (·.settle t))
  tell .exclude .before t
  change fun c => { c with elements }
  change fun c => { c with columns }
  change fun c => { c with parent := some t.relation }
  tell .exclude .after t

/-- Attaches the constraint that is held to the table. -/
def Constraint.setParent (t : Table) : HoldM Constraint Unit := do
  match ← current with
  | .check c => asConstraint .check c (CheckConstraint.setParent t)
  | .exclude c => asConstraint .exclude c (ExcludeConstraint.setParent t)

namespace Table

/-- The constraint that is handed over, attached to the table. -/
def attached (c : Constraint) (t : Table) : HoldM Table Constraint := fun h =>
  let (outcome, held) := Constraint.setParent t ⟨c, h.told⟩
  (outcome.map fun _ => held.value, { h with told := held.told })

/-- Attaches the constraint to the table that is held and adds it to the table's list. -/
def appendConstraint (c : Constraint) : HoldM Table Unit := do
  let c ← attached c (← current)
  change (·.push c)

end Table

end SqlClause
