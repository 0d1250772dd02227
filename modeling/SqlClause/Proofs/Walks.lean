import Mathlib.Data.List.Basic
import Mathlib.Logic.Function.Iterate
import SqlClause.Proofs.Preorder

/-!
# Walks, round by round

A walk lists the nodes of a tree with the help of a stack. In each round the node on top of the
stack is listed and its children are put on the stack in reverse, so that the first of them is on
top next. The nodes that are still to come are those of the trees on the stack, from the top down,
whatever the stack is; a round takes the first of them away. So the walk ends, after as many rounds
as there are nodes, and it has then listed the tree in preorder: every position in the tree once,
and no position before one that is above it.

* `Walk.pending_next`: what a round does to what is to come;
* `Walk.iterate_next`: any number of rounds;
* `Node.preorder_eq_positions`, `Node.mem_positions`, `Node.pairwise_positions`: the positions in a
  tree, in preorder;
* **`Node.iterate_visits_once`**: what the walk of a tree lists.
-/

namespace SqlClause

/-! ## 1. Rounds of a walk -/

/-- A walk under way: its stack, whose top is at the end, and what it has listed. -/
structure Walk where
  stack : List Node
  listed : List Node

namespace Walk

/-- The walk of a tree before the first round. -/
def start (n : Node) : Walk := ⟨[n], []⟩

/-- One round: the node on top is listed, and its children come in its place, the first of them on
top. Without a node there is nothing to do. -/
def next (w : Walk) : Walk :=
  match w.stack.getLast? with
  | none => w
  | some n => ⟨w.stack.dropLast ++ n.children.reverse, w.listed ++ [n]⟩

/-- The nodes that are still to come. -/
def pending (w : Walk) : List Node := Node.walk w.stack.reverse

theorem next_concat (stack listed : List Node) (n : Node) :
    next ⟨stack ++ [n], listed⟩ = ⟨stack ++ n.children.reverse, listed ++ [n]⟩ := by
  simp only [next, List.getLast?_concat, List.dropLast_concat]

theorem pending_concat (stack listed : List Node) (n : Node) :
    pending ⟨stack ++ [n], listed⟩ = n :: pending ⟨stack ++ n.children.reverse, listed ++ [n]⟩ := by
  rw [pending, pending, List.reverse_append, List.reverse_append, List.reverse_reverse,
    List.reverse_singleton, List.singleton_append, Node.walk]

/-- Nothing is to come exactly if the stack is empty. -/
theorem pending_eq_nil_iff (w : Walk) : w.pending = [] ↔ w.stack = [] := by
  obtain ⟨stack, listed⟩ := w
  rcases List.eq_nil_or_concat' stack with rfl | ⟨rest, n, rfl⟩
  · exact iff_of_true (by rw [pending, List.reverse_nil, Node.walk]) rfl
  · rw [pending_concat]
    simp

/-- **A round lists the first of the nodes to come** and takes it away. -/
theorem pending_next (w : Walk) :
    w.next.listed = w.listed ++ w.pending.take 1 ∧ w.next.pending = w.pending.drop 1 := by
  obtain ⟨stack, listed⟩ := w
  rcases List.eq_nil_or_concat' stack with rfl | ⟨rest, n, rfl⟩
  · have hpending : pending ⟨[], listed⟩ = [] := (pending_eq_nil_iff _).mpr rfl
    have hnext : next ⟨[], listed⟩ = ⟨[], listed⟩ := rfl
    rw [hnext, hpending]
    exact ⟨(List.append_nil listed).symm, rfl⟩
  · rw [pending_concat, next_concat]
    exact ⟨rfl, rfl⟩

/-- **Rounds list the nodes to come** from the first on, one in each. -/
theorem iterate_next (w : Walk) : ∀ k : Nat,
    (next^[k] w).listed = w.listed ++ w.pending.take k ∧
      (next^[k] w).pending = w.pending.drop k
  | 0 => ⟨(List.append_nil _).symm, rfl⟩
  | k + 1 => by
      obtain ⟨hlisted, hpending⟩ := iterate_next w k
      obtain ⟨hlisted', hpending'⟩ := pending_next (next^[k] w)
      rw [Function.iterate_succ_apply', hlisted', hpending', hlisted, hpending, List.take_add,
        List.drop_drop, List.append_assoc]
      exact ⟨rfl, rfl⟩

theorem pending_start (n : Node) : (start n).pending = n.iterate := rfl

end Walk

namespace Node

/-! ## 2. Positions in a tree -/

/-- The node at a position: the place of a child in each node on the way down to it. -/
def at? : List Nat → Node → Option Node
  | [], n => some n
  | i :: p, n => n.children[i]?.bind (at? p)

/-- The positions in a tree, each before those below it. -/
def positions : Node → List (List Nat) :=
  fold fun _ c => [] :: c.parts.zipIdx.flatMap fun (ps, i) => ps.map (i :: ·)

theorem positions_mk (c : Clause Node) :
    (mk c).positions = [] :: c.parts.zipIdx.flatMap fun (n, i) => n.positions.map (i :: ·) := by
  rw [positions, fold_mk, Clause.parts_map, List.zipIdx_map, List.flatMap_map]
  rfl

/-- A position below a part is a position in the part. -/
theorem at?_cons {c : Clause Node} {n : Node} {i : Nat} (h : (n, i) ∈ c.parts.zipIdx)
    (p : List Nat) : at? (i :: p) (mk c) = n.at? p := by
  have hpart : (mk c).children[i]? = some n := List.mem_zipIdx_iff_getElem?.mp h
  rw [at?, hpart]
  rfl

/-- **The preorder lists the positions**: the nodes at them, one after the other. -/
theorem preorder_eq_positions : ∀ n : Node, n.preorder.map some = n.positions.map (at? · n) := by
  apply induction
  intro c ih
  have hparts : ∀ x ∈ c.parts.zipIdx,
      (x.1.positions.map (x.2 :: ·)).map (at? · (mk c)) = x.1.preorder.map some := by
    rintro ⟨n, i⟩ hx
    have hn : n ∈ c.parts := List.mem_of_getElem? (List.mem_zipIdx_iff_getElem?.mp hx)
    rw [ih n hn, List.map_map]
    exact List.map_congr_left fun p _ => at?_cons hx p
  have hfst : c.parts.flatMap (fun n => n.preorder.map some) =
      c.parts.zipIdx.flatMap fun x => x.1.preorder.map some := by
    conv_lhs => rw [← List.zipIdx_map_fst 0 c.parts, List.flatMap_map]
  rw [preorder_mk, positions_mk, List.map_cons, List.map_cons, List.map_flatMap,
    List.flatMap_congr hparts, ← hfst, List.map_flatten, List.map_map, List.flatMap_def]
  rfl

/-- **The positions in a tree** are those at which there is a node. -/
theorem mem_positions : ∀ (n : Node) (p : List Nat), p ∈ n.positions ↔ (n.at? p).isSome := by
  apply induction
  intro c ih p
  rw [positions_mk, List.mem_cons, List.mem_flatMap]
  cases p with
  | nil => exact iff_of_true (.inl rfl) rfl
  | cons i p =>
      have hnil : i :: p ≠ [] := List.cons_ne_nil i p
      constructor
      · rintro (h | ⟨⟨n, j⟩, hx, hp⟩)
        · exact absurd h hnil
        · obtain ⟨q, hq, heq⟩ := List.mem_map.mp hp
          obtain ⟨rfl, rfl⟩ := List.cons.inj heq
          have hn : n ∈ c.parts := List.mem_of_getElem? (List.mem_zipIdx_iff_getElem?.mp hx)
          rw [at?_cons hx]
          exact (ih n hn q).mp hq
      · intro h
        right
        cases hpart : c.parts[i]? with
        | none =>
            have hnone : at? (i :: p) (mk c) = none := by
              show (c.parts[i]?).bind (at? p) = none
              rw [hpart]
              rfl
            rw [hnone] at h
            cases h
        | some n =>
            have hx : (n, i) ∈ c.parts.zipIdx := List.mem_zipIdx_iff_getElem?.mpr hpart
            rw [at?_cons hx] at h
            exact ⟨(n, i), hx, List.mem_map_of_mem ((ih n (List.mem_of_getElem? hpart) p).mpr h)⟩

/-- **No position comes before one that is above it**, and none comes twice. -/
theorem pairwise_positions : ∀ n : Node, n.positions.Pairwise fun p q => ¬ q <+: p := by
  apply induction
  intro c ih
  have hbelow : ∀ q ∈ c.parts.zipIdx.flatMap fun (n, i) => n.positions.map (i :: ·),
      ¬ q <+: [] := by
    intro q hq
    obtain ⟨x, -, hq⟩ := List.mem_flatMap.mp hq
    obtain ⟨p, -, rfl⟩ := List.mem_map.mp hq
    exact fun h => List.cons_ne_nil _ _ (List.prefix_nil.mp h)
  have hplaces : c.parts.zipIdx.Pairwise fun x y => x.2 < y.2 := by
    rw [← List.pairwise_map, List.zipIdx_map_snd]
    exact List.pairwise_lt_range' 1
  rw [positions_mk, List.pairwise_cons, List.pairwise_flatMap]
  refine ⟨hbelow, ?_, hplaces.imp ?_⟩
  · rintro ⟨n, i⟩ hx
    have hn : n ∈ c.parts := List.mem_of_getElem? (List.mem_zipIdx_iff_getElem?.mp hx)
    refine List.pairwise_map.mpr ((ih n hn).imp fun hpq hprefix => hpq ?_)
    exact (List.cons_prefix_cons.mp hprefix).2
  · -- below two children the positions differ in the first place
    rintro ⟨n, i⟩ ⟨m, j⟩ hlt p hp q hq hprefix
    obtain ⟨p', -, rfl⟩ := List.mem_map.mp hp
    obtain ⟨q', -, rfl⟩ := List.mem_map.mp hq
    exact absurd (List.cons_prefix_cons.mp hprefix).1 (Nat.ne_of_gt hlt)

/-! ## 3. What is listed -/

/-- A walk lists the root, and then what the walks of the children list. -/
theorem iterate_eq_cons (n : Node) : n.iterate = n :: n.children.flatMap iterate := by
  obtain ⟨c⟩ := n
  have hparts : c.parts.flatMap iterate = (c.parts.map preorder).flatten := by
    rw [List.flatMap_def]
    exact congrArg List.flatten (List.map_congr_left fun n _ => n.iterate_eq_preorder)
  rw [iterate_eq_preorder, preorder_mk]
  exact congrArg (mk c :: ·) hparts.symm

theorem length_flatMap_iterate (ns : List Node) :
    (ns.flatMap iterate).length = total (ns.map fun n => n.iterate.length) := by
  induction ns with
  | nil => rfl
  | cons n ns ih => rw [List.flatMap_cons, List.length_append, ih, List.map_cons, total_cons]

/-- **The walk of a tree lists every node once, and before what is below it.** It lists the root and
then what the walks of the children list, child by child, so it is by one longer than these
together. Its nodes stand at the positions in the tree, each position once and none behind one below
it. And the walk ends: a round lists one more of these nodes, and the stack is empty as soon as all
of them are listed, and not before. -/
theorem iterate_visits_once (n : Node) :
    n.iterate = n :: n.children.flatMap iterate ∧
      n.iterate.length = 1 + total (n.children.map fun m => m.iterate.length) ∧
      n.iterate.map some = n.positions.map (at? · n) ∧
      (∀ p, p ∈ n.positions ↔ (n.at? p).isSome) ∧
      n.positions.Pairwise (fun p q => ¬ q <+: p) ∧
      ∀ k : Nat, (Walk.next^[k] (.start n)).listed = n.iterate.take k ∧
        ((Walk.next^[k] (.start n)).stack = [] ↔ n.iterate.length ≤ k) := by
  have hlength : n.iterate.length = 1 + total (n.children.map fun m => m.iterate.length) := by
    rw [iterate_eq_cons, List.length_cons, length_flatMap_iterate, Nat.add_comm]
  have hnodes : n.iterate.map some = n.positions.map (at? · n) := by
    rw [iterate_eq_preorder, preorder_eq_positions]
  refine ⟨n.iterate_eq_cons, hlength, hnodes, n.mem_positions, n.pairwise_positions, fun k => ?_⟩
  obtain ⟨hlisted, hpending⟩ := Walk.iterate_next (.start n) k
  rw [Walk.pending_start] at hlisted hpending
  refine ⟨hlisted, ?_⟩
  rw [← Walk.pending_eq_nil_iff, hpending, List.drop_eq_nil_iff]

end Node

end SqlClause
