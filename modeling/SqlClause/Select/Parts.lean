import SqlClause.Relation

/-!
# The parts of a SELECT statement

`Select α` holds everything that a statement says, over the type `α` of its clauses. The statement
proper is `Select Node` (`SqlClause.Select.Basic`); the parameter lets the same shape hold what was
computed for the clauses.
-/

namespace SqlClause

/-- The place in a statement at which clauses of an extension stand. -/
inductive ExtensionPoint where
  /-- Between `SELECT`, with its `DISTINCT`, and the columns. -/
  | preColumns
  /-- After `WHERE` and before `GROUP BY`. -/
  | postCriteria
  /-- After everything else. -/
  | postBody
deriving DecidableEq, Repr

namespace ExtensionPoint

/-- Every extension point, in the order of the statement's text. -/
def all : List ExtensionPoint := [preColumns, postCriteria, postBody]

def name : ExtensionPoint → String
  | preColumns => "pre_columns"
  | postCriteria => "post_criteria"
  | postBody => "post_body"

end ExtensionPoint

/-- A SELECT statement over clauses of type `α`. -/
structure Select (α : Type) where
  columns : List α
  /-- The condition after `WHERE`. -/
  criterion : Option α
  groupBy : List α
  orderBy : List α
  limit : Option UInt64
  offset : Option UInt64
  distinct : Bool
  /-- The terms of `DISTINCT ON` that belong to the statement itself. -/
  distinctOn : List α
  /-- An extension has taken over `DISTINCT ON`. -/
  distinctOnClaimed : Bool
  preColumns : List α
  postCriteria : List α
  postBody : List α

namespace Select

variable {α β γ : Type}

/-- The statement that says nothing. -/
def empty : Select α := ⟨[], none, [], [], none, none, false, [], false, [], [], []⟩

instance : EmptyCollection (Select α) := ⟨empty⟩

instance : Inhabited (Select α) := ⟨empty⟩

/-- The statement with `f` done to its clauses. -/
def map (f : α → β) (s : Select α) : Select β :=
  { columns := s.columns.map f
    criterion := s.criterion.map f
    groupBy := s.groupBy.map f
    orderBy := s.orderBy.map f
    limit := s.limit
    offset := s.offset
    distinct := s.distinct
    distinctOn := s.distinctOn.map f
    distinctOnClaimed := s.distinctOnClaimed
    preColumns := s.preColumns.map f
    postCriteria := s.postCriteria.map f
    postBody := s.postBody.map f }

/-- The clauses that stand at an extension point. -/
def extensionPoint (s : Select α) : ExtensionPoint → List α
  | .preColumns => s.preColumns
  | .postCriteria => s.postCriteria
  | .postBody => s.postBody

/-- The statement with other clauses at an extension point. -/
def setExtensionPoint (s : Select α) (point : ExtensionPoint) (clauses : List α) : Select α :=
  match point with
  | .preColumns => { s with preColumns := clauses }
  | .postCriteria => { s with postCriteria := clauses }
  | .postBody => { s with postBody := clauses }

/-- The statement with what `f` answers for its clauses. The lists are visited first, in the order
of the fields, and the criterion last. -/
def traverse {m : Type → Type} [Monad m] (f : α → m β) (s : Select α) : m (Select β) := do
  let columns ← s.columns.mapM f
  let groupBy ← s.groupBy.mapM f
  let orderBy ← s.orderBy.mapM f
  let distinctOn ← s.distinctOn.mapM f
  let preColumns ← s.preColumns.mapM f
  let postCriteria ← s.postCriteria.mapM f
  let postBody ← s.postBody.mapM f
  let criterion ← match s.criterion with
    | none => pure none
    | some c => some <$> f c
  return { columns, criterion, groupBy, orderBy, limit := s.limit, offset := s.offset
           distinct := s.distinct, distinctOn, distinctOnClaimed := s.distinctOnClaimed
           preColumns, postCriteria, postBody }

@[simp] theorem extensionPoint_setExtensionPoint (s : Select α) (p q : ExtensionPoint)
    (cs : List α) :
    (s.setExtensionPoint p cs).extensionPoint q = if p = q then cs else s.extensionPoint q := by
  cases p <;> cases q <;> rfl

theorem map_map (f : α → β) (g : β → γ) (s : Select α) : (s.map f).map g = s.map (g ∘ f) := by
  simp [map]

theorem map_id (s : Select α) : s.map id = s := by
  cases s
  simp [map]

theorem traverse_map {m : Type → Type} [Monad m] [LawfulMonad m] (f : α → β) (g : β → m γ)
    (s : Select α) : (s.map f).traverse g = s.traverse fun x => g (f x) := by
  rcases s with ⟨_, _ | _⟩ <;> simp [map, traverse, List.mapM_map, Function.comp_def]

end Select

end SqlClause
