import SqlClause.Node.Basic

/-!
# Replacement

`replace` asks a question about every node, from the root down. Where there is an answer it takes
the place of the node and nothing below the node is asked about; where there is none, the parts are
treated in the same way. The question may have effects, which then happen in the order of asking:
parts in order, and the criterion of a statement after its other parts.

* `Node.replace_mk`: one step of a replacement.
-/

namespace SqlClause

namespace Node

variable {m : Type → Type} [Monad m]

/-- The tree with the answers in the place of the nodes that have one. -/
def replace (ask : Node → m (Option Node)) : Node → m Node :=
  fold fun n c => do
    match ← ask n with
    | some answer => return answer
    | none => return mk (← c.traverse id)

/-- **One step of a replacement: the answer, or the node with its parts treated alike.** -/
theorem replace_mk [LawfulMonad m] (ask : Node → m (Option Node)) (c : Clause Node) :
    (mk c).replace ask = (do
      match ← ask (mk c) with
      | some answer => return answer
      | none => return mk (← c.traverse (replace ask))) := by
  rw [replace, fold_mk]
  simp only [Clause.traverse_map, id]

/-- A replacement in which nothing is replaced. -/
def copy (n : Node) : Node := Id.run (n.replace fun _ => pure none)

end Node

end SqlClause
