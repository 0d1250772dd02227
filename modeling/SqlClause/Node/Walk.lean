import SqlClause.Node.Basic

/-!
# Walks

`iterate` lists a node and everything below it by working off a stack: it takes the top node, lists
it, and puts its children on the stack in its place. `preorder` lists the same by recursion, a node
before its descendants and the descendants child by child. `size` counts the nodes; it is what the
walk uses up.

* `Node.size_mk`: the size of a node, from the sizes of its parts.
-/

namespace SqlClause

/-! ## 1. Sums -/

/-- The sum of a list of numbers. -/
def total (ns : List Nat) : Nat := ns.foldr (· + ·) 0

@[simp] theorem total_nil : total [] = 0 := rfl

@[simp] theorem total_cons (n : Nat) (ns : List Nat) : total (n :: ns) = n + total ns := rfl

@[simp] theorem total_append (ms ns : List Nat) : total (ms ++ ns) = total ms + total ns := by
  induction ms with
  | nil => exact (Nat.zero_add _).symm
  | cons m ms ih => rw [List.cons_append, total_cons, total_cons, ih, Nat.add_assoc]

namespace Node

/-! ## 2. The nodes of a tree -/

/-- The number of nodes in a tree. -/
def size : Node → Nat := fold fun _ c => total c.parts + 1

theorem size_mk (c : Clause Node) : (mk c).size = total (c.parts.map size) + 1 := by
  rw [size, fold_mk, Clause.parts_map]

/-- A node and its descendants, each before what is below it. -/
def preorder : Node → List Node := fold fun n c => n :: c.parts.flatten

theorem preorder_mk (c : Clause Node) :
    (mk c).preorder = mk c :: (c.parts.map preorder).flatten := by
  rw [preorder, fold_mk, Clause.parts_map]

/-! ## 3. The walk with a stack -/

/-- Works off a stack of nodes: the top node is listed and replaced by its children. -/
def walk : List Node → List Node
  | [] => []
  | n :: stack => n :: walk (n.children ++ stack)
termination_by stack => total (stack.map size)
decreasing_by
  obtain ⟨c⟩ := n
  simp only [children, clause, List.map_append, total_append, List.map_cons, total_cons, size_mk]
  omega

/-- A node and everything below it, by a walk with a stack. -/
def iterate (n : Node) : List Node := walk [n]

end Node

end SqlClause
