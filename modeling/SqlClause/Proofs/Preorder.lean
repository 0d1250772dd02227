import SqlClause.Node.Walk

/-!
# The nodes of a tree in order

The walk with a stack lists what is on the stack, tree by tree and each tree in preorder. What a
tree binds are the values of its `BindParam` nodes in this order, and a tree is built in if none of
its nodes is of a kind that is defined elsewhere.

* `Node.walk_eq`, **`Node.iterate_eq_preorder`**: the walk is the recursive preorder;
* `Node.filterMap_preorder_mk`: what is collected from a tree, node by node;
* `Node.boundValues_mk`, `Node.builtIn_mk`: one step of both notions.
-/

namespace SqlClause

/-- The value of a clause that binds one. -/
def Clause.boundValue? {α : Type} : Clause α → Option Value
  | .bind p => some p.value
  | _ => none

namespace Node

/-! ## 1. The walk -/

/-- The walk lists the trees on the stack one after the other. -/
theorem walk_eq (stack : List Node) : walk stack = (stack.map preorder).flatten := by
  induction stack using walk.induct with
  | case1 => rw [walk, List.map_nil, List.flatten_nil]
  | case2 n stack ih =>
      obtain ⟨c⟩ := n
      rw [walk, ih, List.map_cons, List.flatten_cons, preorder_mk]
      simp only [children, clause, List.map_append, List.flatten_append, List.cons_append]

/-- **The walk is the recursive preorder.** -/
theorem iterate_eq_preorder (n : Node) : n.iterate = n.preorder := by
  rw [iterate, walk_eq, List.map_singleton, List.flatten_singleton]

/-- What is collected from a node and then from some walks comes from the node and from each of
them. -/
theorem filterMap_cons_flatten {β : Type} (f : Node → Option β) (n : Node)
    (walk : Node → List Node) (ns : List Node) :
    (n :: (ns.map walk).flatten).filterMap f =
      (f n).toList ++ ns.flatMap fun m => (walk m).filterMap f := by
  have hwalks : (ns.map walk).flatten.filterMap f = ns.flatMap fun m => (walk m).filterMap f := by
    rw [List.filterMap_flatten, List.map_map, List.flatMap_def]
    rfl
  cases hroot : f n with
  | none => rw [List.filterMap_cons_none hroot, hwalks, Option.toList_none, List.nil_append]
  | some b =>
      rw [List.filterMap_cons_some hroot, hwalks, Option.toList_some, List.singleton_append]

/-- What is collected from a tree comes from the root and from what is below its parts. -/
theorem filterMap_preorder_mk {β : Type} (f : Node → Option β) (c : Clause Node) :
    (mk c).preorder.filterMap f =
      (f (mk c)).toList ++ c.parts.flatMap fun n => n.preorder.filterMap f := by
  rw [preorder_mk]
  exact filterMap_cons_flatten f (mk c) preorder c.parts

/-! ## 2. Bound values -/

/-- The value of a node that binds one. -/
def boundValue? (n : Node) : Option Value := n.clause.boundValue?

/-- The values that the nodes of a tree bind, in preorder. -/
def boundValues (n : Node) : List Value := n.preorder.filterMap boundValue?

theorem boundValues_mk (c : Clause Node) :
    (mk c).boundValues = c.boundValue?.toList ++ c.parts.flatMap boundValues :=
  filterMap_preorder_mk boundValue? c

/-! ## 3. Properties of all nodes -/

/-- All nodes of a tree have a property if its root does and all nodes below its parts do. -/
theorem forall_preorder_mk {P : Node → Prop} {c : Clause Node} :
    (∀ m ∈ (mk c).preorder, P m) ↔ P (mk c) ∧ ∀ n ∈ c.parts, ∀ m ∈ n.preorder, P m := by
  rw [preorder_mk]
  constructor
  · intro h
    refine ⟨h (mk c) List.mem_cons_self, fun n hn m hm => h m (List.mem_cons_of_mem _ ?_)⟩
    exact List.mem_flatten.mpr ⟨n.preorder, List.mem_map_of_mem hn, hm⟩
  · rintro ⟨hc, hparts⟩ m hm
    rcases List.mem_cons.mp hm with rfl | hm
    · exact hc
    · obtain ⟨l, hl, hm⟩ := List.mem_flatten.mp hm
      obtain ⟨n, hn, rfl⟩ := List.mem_map.mp hl
      exact hparts n hn m hm

/-- No node of the tree is of a kind that is defined elsewhere. -/
def BuiltIn (n : Node) : Prop := ∀ m ∈ n.preorder, m.clause.isCustom = false

instance (n : Node) : Decidable n.BuiltIn :=
  inferInstanceAs (Decidable (∀ m ∈ n.preorder, m.clause.isCustom = false))

theorem builtIn_mk {c : Clause Node} :
    (mk c).BuiltIn ↔ c.isCustom = false ∧ ∀ n ∈ c.parts, n.BuiltIn :=
  forall_preorder_mk

end Node

end SqlClause
