import SqlClause.Coercion
import SqlClause.Node.Relations

/-!
# SELECT statements

Statements are built step by step, each step giving a new statement. Terms are read under the role
of `ORDER BY` terms, in order; the first that cannot be read fails the step. Criteria are joined by
`AND`.

`DISTINCT ON` can be asked for by the statement itself (`addDistinctOn`) or be taken over by an
extension (`claimDistinctOn`), and not by both.
-/

namespace SqlClause

/-- A SELECT statement. -/
abbrev Statement := Select Node

/-- A change of a statement in place. A change that fails may have done a part of its work. -/
abbrev Edit := ExceptT Error (StateM Statement)

namespace Select

/-! ## 1. Building -/

def ofColumns (columns : List Node) : Statement := { empty with columns }

def addColumns (s : Statement) (columns : List Node) : Statement :=
  { s with columns := s.columns ++ columns }

/-- The statement with one more criterion, joined to the others by `AND`. -/
def addCriterion (s : Statement) (n : Node) : Statement :=
  { s with criterion := some (match s.criterion with
      | none => n
      | some c => c.op .and n) }

/-- Terms of `ORDER BY`, `GROUP BY` or `DISTINCT ON`. -/
def readTerms (terms : List Argument) : Except Error (List Node) := terms.mapM (coerce .byOf)

def addGroupBy (s : Statement) (terms : List Argument) : Except Error Statement := do
  return { s with groupBy := s.groupBy ++ (← readTerms terms) }

def addOrderBy (s : Statement) (terms : List Argument) : Except Error Statement := do
  return { s with orderBy := s.orderBy ++ (← readTerms terms) }

def setLimit (s : Statement) (n : UInt64) : Statement := { s with limit := some n }

def setOffset (s : Statement) (n : UInt64) : Statement := { s with offset := some n }

def setDistinct (s : Statement) : Statement := { s with distinct := true }

/-! ## 2. `DISTINCT ON` -/

/-- `DISTINCT ON` is asked for twice: by the statement and by an extension. -/
def hasConflict {α : Type} (s : Select α) : Bool := s.distinctOnClaimed && !s.distinctOn.isEmpty

/-- The statement with terms of `DISTINCT ON` of its own. The terms are read before the conflict
with an extension is noticed. -/
def addDistinctOn (s : Statement) (terms : List Argument) : Except Error Statement := do
  let s := { s with distinctOn := s.distinctOn ++ (← readTerms terms) }
  if s.hasConflict then throw .distinctOnConflict
  return s.setDistinct

/-- Records that an extension brings `DISTINCT ON`. The record stays even if it conflicts with
terms of the statement's own. -/
def claimDistinctOn : Edit Unit := do
  modify fun s => { s with distinctOnClaimed := true }
  if (← get).hasConflict then throw .distinctOnConflict

/-! ## 3. What a statement selects from -/

/-- The relations mentioned by the columns and by the criterion, without duplicates. -/
def relations (s : Statement) : List Relation :=
  ((s.columns ++ s.criterion.toList).map Node.relations).foldl Relation.merge []

end Select

namespace Node

def select (s : Statement) : Node := ⟨.select s⟩

/-- The relations that a statement selects from; of any other node, none. -/
def sources (n : Node) : List Relation :=
  match n.clause with
  | .select s => s.relations
  | _ => []

end Node

end SqlClause
