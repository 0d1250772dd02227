import SqlClause.Select.Basic

/-!
# Extensions of a statement

An extension is a clause that puts itself into a statement, at an extension point. `DISTINCT ON`
goes before the columns, and all applications of it become one clause with the terms of all of them
in order; a hint goes to the end, after the hints before it.

`Select.extend` works on a copy, so an extension that fails leaves nothing behind.
-/

namespace SqlClause

/-- A clause that knows its place in a statement. -/
inductive Extension where
  | distinctOn (terms : List Node)
  | hint (n : Node)

namespace Extension

/-- `DISTINCT ON` with at least one term. -/
def readDistinctOn (terms : List Argument) : Except Error Extension := do
  let terms ← Select.readTerms terms
  if terms.isEmpty then throw (.empty .distinctOnTerms)
  return .distinctOn terms

/-- A hint, given as SQL text or as an expression. -/
def readHint (a : Argument) : Except Error Extension := hint <$> coerce .option a

/-- The extension as a clause of its own. -/
def node : Extension → Node
  | distinctOn terms => ⟨.distinctOn terms⟩
  | hint n => ⟨.hint n⟩

/-- The terms of a `DISTINCT ON` clause. -/
def distinctOnTerms? (n : Node) : Option (List Node) :=
  match n.clause with
  | .distinctOn terms => some terms
  | _ => none

/-- All `DISTINCT ON` clauses among `existing` folded into one, with `terms` at its end. The other
clauses stay in their order, and the folded clause comes last. -/
def mergeDistinctOn (terms existing : List Node) : List Node :=
  existing.filter (fun n => (distinctOnTerms? n).isNone)
    ++ [⟨.distinctOn ((existing.filterMap distinctOnTerms?).flatten ++ terms)⟩]

/-- Puts the extension into the statement. -/
def apply : Extension → Edit Unit
  | distinctOn terms => do
      Select.claimDistinctOn
      modify Select.setDistinct
      modify fun s => s.setExtensionPoint .preColumns (mergeDistinctOn terms s.preColumns)
  | hint n => modify fun s => s.setExtensionPoint .postBody (s.postBody ++ [node (.hint n)])

end Extension

/-- A copy of the statement with the extension in it. -/
def Select.extend (s : Statement) (e : Extension) : Except Error Statement :=
  match e.apply.run s with
  | (.ok (), s) => .ok s
  | (.error e, _) => .error e

end SqlClause
