import SqlClause.Compiler
import SqlClause.Node.Key
import SqlClause.Node.Relations
import SqlClause.Node.Replace
import SqlClause.Proofs.Visits

/-!
# Replacement, call by call

A replacement asks its question about the root, about every part of a node that has no answer, and
about nothing else. The calls come in the order of visits, and what happens to the tree is told by
them alone: a node with an answer becomes the answer, and every other node keeps its frame. If there
is never an answer nothing happens to the tree, whatever the question does to its state.

* `Replaced`: a tree, the calls with their answers, and what the tree becomes;
* `Node.exists_makes`: every replacement makes such calls;
* `Replaced.perm`: who is asked about;
* `Node.replace_of_never`: a question without answers;
* **`Node.replaced_calls`**: the calls of a replacement and its result.
-/

namespace SqlClause

/-! ## 1. Calls -/

/-- A node that the question was asked about, and the answer. -/
structure Call where
  node : Node
  answer : Option Node

/-- By these calls, in this order, the first tree becomes the second. -/
inductive Replaced : Node → List Call → Node → Prop where
  /-- The answer takes the place of the node, and nothing below the node is asked about. -/
  | answered (n answer : Node) : Replaced n [⟨n, some answer⟩] answer
  /-- A node without an answer keeps its frame. Its parts come to their turn as they are visited. -/
  | kept {c d : Clause Node} {runs : List (List Call × Node)}
      (hparts : List.Forall₂ (fun n run => Replaced n run.1 run.2) c.visited runs)
      (hframe : d.frame = c.frame) (hvisited : d.visited = runs.map Prod.snd) :
      Replaced ⟨c⟩ (⟨⟨c⟩, none⟩ :: (runs.map Prod.fst).flatten) ⟨d⟩

/-- The parts of the nodes that had no answer. -/
def keptParts (calls : List Call) : List Node :=
  (calls.filter fun call => call.answer.isNone).flatMap fun call => call.node.children

theorem keptParts_append (calls more : List Call) :
    keptParts (calls ++ more) = keptParts calls ++ keptParts more := by
  rw [keptParts, List.filter_append, List.flatMap_append]
  rfl

namespace Node

section Calls

variable {σ : Type} (ask : Node → StateM σ (Option Node))

/-- The question, with a note of each call beside the state. -/
def noted (n : Node) : StateM (σ × List Call) (Option Node) := fun (s, before) =>
  let (answer, s) := ask n s
  (answer, s, before ++ [⟨n, answer⟩])

/-- The calls that a replacement makes, as they are noted. -/
def calls (n : Node) (s : σ) : List Call := (n.replace (noted ask) (s, [])).2.2

/-- In the state `s` the tree becomes `m` by these calls, which leave the state `s'`. -/
structure Makes (n : Node) (s : σ) (calls : List Call) (m : Node) (s' : σ) : Prop where
  result : n.replace ask s = (m, s')
  noted : ∀ before, n.replace (noted ask) (s, before) = (m, s', before ++ calls)
  performed : (calls.map Call.node).mapM ask s = (calls.map Call.answer, s')
  replaced : Replaced n calls m

/-- In the state `s` the trees of a list, one after the other, become what the runs tell by the
calls that they tell, which leave the state `s'`. -/
structure MakesAll (ns : List Node) (s : σ) (runs : List (List Call × Node)) (s' : σ) : Prop where
  results : ns.mapM (replace ask) s = (runs.map Prod.snd, s')
  noted : ∀ before, ns.mapM (replace (Node.noted ask)) (s, before) =
    (runs.map Prod.snd, s', before ++ (runs.map Prod.fst).flatten)
  performed : ((runs.map Prod.fst).flatten.map Call.node).mapM ask s =
    ((runs.map Prod.fst).flatten.map Call.answer, s')
  replaced : List.Forall₂ (fun n run => Replaced n run.1 run.2) ns runs

variable {ask} {n m : Node} {c : Clause Node} {s s' s'' : σ} {answer : Node}

/-! ## 2. One step -/

theorem replace_of_answer (h : ask n s = (some answer, s')) :
    n.replace ask s = (answer, s') := by
  obtain ⟨c⟩ := n
  rw [replace_mk, bind_of_eq h]
  rfl

theorem replace_of_none {d : Clause Node} (h : ask ⟨c⟩ s = (none, s'))
    (hparts : c.traverse (replace ask) s' = (d, s'')) : (mk c).replace ask s = (⟨d⟩, s'') := by
  rw [replace_mk, bind_of_eq h]
  exact bind_of_eq hparts _

/-- An answer is all there is to it. -/
theorem makes_of_answer (h : ask n s = (some answer, s')) :
    Makes ask n s [⟨n, some answer⟩] answer s' where
  result := replace_of_answer h
  noted before := replace_of_answer (by rw [Node.noted, h])
  performed := mapM_cons_of_eq h rfl
  replaced := .answered n answer

/-- Without an answer the node is made again from what its parts become. -/
theorem makes_of_none {runs : List (List Call × Node)} (h : ask ⟨c⟩ s = (none, s'))
    (hparts : MakesAll ask c.visited s' runs s'') :
    ∃ d, Makes ask ⟨c⟩ s (⟨⟨c⟩, none⟩ :: (runs.map Prod.fst).flatten) ⟨d⟩ s'' := by
  have hvisit : c.visited.mapM (replace ask) s' = ((c.traverse (replace ask) s').1.visited, _) :=
    (Clause.traverse_eq_iff.mp rfl).2
  obtain ⟨hvisited, hstate⟩ := Prod.mk.inj (hvisit.symm.trans hparts.results)
  have hframe : (c.traverse (replace ask) s').1.frame = c.frame := c.frame_traverse _ s'
  refine ⟨(c.traverse (replace ask) s').1, ?_, fun before => ?_, ?_, ?_⟩
  · exact replace_of_none h (Prod.ext rfl hstate)
  · have hnoted : noted ask ⟨c⟩ (s, before) = (none, s', before ++ [⟨⟨c⟩, none⟩]) := by
      rw [noted, h]
    refine replace_of_none hnoted (Clause.traverse_eq_iff.mpr ⟨hframe, ?_⟩)
    rw [hparts.noted, hvisited, List.append_assoc]
    rfl
  · exact mapM_cons_of_eq h hparts.performed
  · exact .kept hparts.replaced hframe hvisited

/-! ## 3. All steps -/

/-- If every tree of a list makes calls, so does the list. -/
theorem exists_makesAll : ∀ {ns : List Node},
    (∀ n ∈ ns, ∀ s, ∃ calls m s', Makes ask n s calls m s') →
    ∀ s, ∃ runs s', MakesAll ask ns s runs s'
  | [], _, s => ⟨[], s, rfl, fun before => congrArg (([], s, ·)) before.append_nil.symm, rfl, .nil⟩
  | n :: ns, h, s => by
      obtain ⟨calls, m, s', hhead⟩ := h n List.mem_cons_self s
      obtain ⟨runs, s'', hrest⟩ := exists_makesAll (fun n hn => h n (List.mem_cons_of_mem _ hn)) s'
      refine ⟨(calls, m) :: runs, s'', ?_, fun before => ?_, ?_, ?_⟩
      · exact mapM_cons_of_eq hhead.result hrest.results
      · refine (mapM_cons_of_eq (hhead.noted before) (hrest.noted (before ++ calls))).trans ?_
        rw [List.append_assoc]
        rfl
      · show ((calls ++ _).map Call.node).mapM ask s = ((calls ++ _).map Call.answer, s'')
        rw [List.map_append, List.map_append]
        exact mapM_append_of_eq hhead.performed hrest.performed
      · exact .cons hhead.replaced hrest.replaced

/-- **Every replacement makes calls by which the tree becomes the result.** -/
theorem exists_makes (ask : Node → StateM σ (Option Node)) : ∀ (n : Node) (s : σ),
    ∃ calls m s', Makes ask n s calls m s' := by
  apply induction
  intro c ih s
  rcases hanswer : ask ⟨c⟩ s with ⟨_ | answer, s'⟩
  · obtain ⟨runs, s'', hparts⟩ :=
      exists_makesAll (fun n hn => ih n (Clause.mem_visited.mp hn)) s'
    obtain ⟨d, hd⟩ := makes_of_none hanswer hparts
    exact ⟨_, _, _, hd⟩
  · exact ⟨_, _, _, makes_of_answer hanswer⟩

/-- The calls that are noted are the ones by which the tree becomes the result. -/
theorem makes_calls (ask : Node → StateM σ (Option Node)) (n : Node) (s : σ) :
    Makes ask n s (n.calls ask s) (n.replace ask s).1 (n.replace ask s).2 := by
  obtain ⟨calls, m, s', h⟩ := exists_makes ask n s
  have hcalls : n.calls ask s = calls := by
    rw [Node.calls, h.noted, List.nil_append]
  rw [hcalls, h.result]
  exact h

end Calls

end Node

/-! ## 4. Who is asked about -/

namespace Replaced

/-- If in each tree its root and the parts of its nodes without an answer are asked about, so are
all roots and the parts of all nodes without an answer. -/
theorem perm_of_forall₂ {ns : List Node} {runs : List (List Call × Node)}
    (h : List.Forall₂ (fun n run => Replaced n run.1 run.2) ns runs)
    (ih : ∀ n ∈ ns, ∀ calls m, Replaced n calls m →
      (calls.map Call.node).Perm (n :: keptParts calls)) :
    ((runs.map Prod.fst).flatten.map Call.node).Perm
      (ns ++ keptParts (runs.map Prod.fst).flatten) := by
  induction h with
  | nil => exact .refl _
  | @cons n run ns runs hhead _ ihrest =>
      have hown := ih n List.mem_cons_self run.1 run.2 hhead
      have hothers := ihrest fun n hn => ih n (List.mem_cons_of_mem _ hn)
      rw [List.map_cons, List.flatten_cons, List.map_append, keptParts_append]
      refine (hown.append hothers).trans (.cons n ?_)
      show (keptParts run.1 ++ (ns ++ _)).Perm (ns ++ (keptParts run.1 ++ _))
      rw [← List.append_assoc, ← List.append_assoc]
      exact List.perm_append_comm.append_right _

/-- **The root is asked about, every part of a node without an answer, and nothing else**, each of
them once. -/
theorem perm {n m : Node} {calls : List Call} (hreplaced : Replaced n calls m) :
    (calls.map Call.node).Perm (n :: keptParts calls) := by
  induction n using Node.induction generalizing calls m with
  | h c ih =>
      cases hreplaced with
      | answered => exact .refl _
      | @kept _ d runs hparts _ _ =>
          have hbelow := perm_of_forall₂ hparts fun n hn _ _ => ih n (Clause.mem_visited.mp hn)
          exact (hbelow.trans (c.visited_perm.append_right _)).cons _

/-- What is never answered becomes itself, tree by tree. -/
theorem unchanged_of_forall₂ {ns : List Node} {runs : List (List Call × Node)}
    (h : List.Forall₂ (fun n run => Replaced n run.1 run.2) ns runs)
    (hnone : ∀ call ∈ (runs.map Prod.fst).flatten, call.answer = none)
    (ih : ∀ n ∈ ns, ∀ calls m, Replaced n calls m → (∀ call ∈ calls, call.answer = none) →
      m = n ∧ calls.map Call.node = n.visitOrder) :
    runs.map Prod.snd = ns ∧
      (runs.map Prod.fst).flatten.map Call.node = (ns.map Node.visitOrder).flatten := by
  induction h with
  | nil => exact ⟨rfl, rfl⟩
  | @cons n run ns runs hhead _ ihrest =>
      rw [List.map_cons, List.flatten_cons, List.forall_mem_append] at hnone
      obtain ⟨hown, hvisits⟩ := ih n List.mem_cons_self run.1 run.2 hhead hnone.1
      obtain ⟨hothers, hmore⟩ := ihrest hnone.2 fun n hn => ih n (List.mem_cons_of_mem _ hn)
      rw [List.map_cons, List.map_cons, List.flatten_cons, List.map_append, hown, hothers, hvisits,
        hmore]
      exact ⟨rfl, rfl⟩

/-- **What is never answered becomes itself**, and its nodes are asked about in the order of
visits. -/
theorem unchanged {n m : Node} {calls : List Call} (hreplaced : Replaced n calls m)
    (hnone : ∀ call ∈ calls, call.answer = none) :
    m = n ∧ calls.map Call.node = n.visitOrder := by
  induction n using Node.induction generalizing calls m with
  | h c ih =>
      cases hreplaced with
      | answered => cases hnone _ (List.mem_singleton_self _)
      | @kept _ d runs hparts hframe hvisited =>
          obtain ⟨hresults, hvisits⟩ := unchanged_of_forall₂ hparts
            (fun call hcall => hnone call (List.mem_cons_of_mem _ hcall))
            fun n hn _ _ => ih n (Clause.mem_visited.mp hn)
          refine ⟨congrArg Node.mk (Clause.eq_of_frame hframe (hvisited.trans hresults)), ?_⟩
          rw [Node.visitOrder_mk, List.map_cons, hvisits]

end Replaced

namespace Node

/-! ## 5. A question without answers -/

variable {σ : Type} {ask : Node → StateM σ (Option Node)}

/-- What is noted as an answer is the answer in some state. -/
theorem exists_answer : ∀ {calls : List Call} {s s' : σ},
    (calls.map Call.node).mapM ask s = (calls.map Call.answer, s') →
    ∀ call ∈ calls, ∃ s, (ask call.node s).1 = call.answer
  | [], _, _, _, _, hcall => nomatch hcall
  | first :: calls, s, s', h, call, hcall => by
      rcases hfirst : ask first.node s with ⟨answer, s₁⟩
      rcases hcalls : (calls.map Call.node).mapM ask s₁ with ⟨answers, s₂⟩
      obtain ⟨hanswers, -⟩ := Prod.mk.inj ((mapM_cons_of_eq hfirst hcalls).symm.trans h)
      obtain ⟨rfl, rfl⟩ := List.cons.inj hanswers
      rcases List.mem_cons.mp hcall with rfl | hcall
      · exact ⟨s, congrArg Prod.fst hfirst⟩
      · exact exists_answer hcalls call hcall

/-- **Without answers nothing happens to the tree**, whatever happens to the state. -/
theorem replace_of_never (h : ∀ m s, (ask m s).1 = none) (n : Node) (s : σ) :
    (n.replace ask s).1 = n ∧ (n.calls ask s).map Call.node = n.visitOrder := by
  have hmakes := makes_calls ask n s
  refine hmakes.replaced.unchanged fun call hcall => ?_
  obtain ⟨s', hanswer⟩ := exists_answer hmakes.performed call hcall
  exact hanswer.symm.trans (h call.node s')

/-- A copy is made of copies of the parts. -/
theorem copy_mk (c : Clause Node) : (mk c).copy = mk (c.map copy) := by
  have hvisit : (c.traverse (replace fun _ => pure none) : Id (Clause Node)) = c.map copy :=
    Clause.traverse_pure (m := Id) copy c
  show Id.run ((mk c).replace fun _ => pure none) = _
  rw [replace_mk]
  exact congrArg mk hvisit

/-- **A copy is the tree again.** -/
theorem copy_eq : ∀ n : Node, n.copy = n := by
  apply induction
  intro c ih
  rw [copy_mk, Clause.map_congr (g := id) ih, Clause.map_id]

/-! ## 6. What a replacement does -/

/-- **The calls of a replacement and its result.** A note of the calls changes nothing else. The
root is asked about, and every part of a node without an answer, each once and in the order of
visits; the answers are those of the states that the calls before have left. A node with an answer
becomes the answer and every other keeps its frame. Without answers, and in a copy, the tree stays
as it is, so that its key, its types, its relations and its texts do, and it agrees with itself
unless it binds a NaN. -/
theorem replaced_calls (ask : Node → StateM σ (Option Node)) (n : Node) (s : σ) :
    (∀ before, n.replace (noted ask) (s, before) =
      ((n.replace ask s).1, (n.replace ask s).2, before ++ n.calls ask s)) ∧
    ((n.calls ask s).map Call.node).mapM ask s =
      ((n.calls ask s).map Call.answer, (n.replace ask s).2) ∧
    Replaced n (n.calls ask s) (n.replace ask s).1 ∧
    ((n.calls ask s).map Call.node).Perm (n :: keptParts (n.calls ask s)) ∧
    ((∀ m s, (ask m s).1 = none) → (n.replace ask s).1 = n ∧
      (n.calls ask s).map Call.node = n.visitOrder) ∧
    ∀ m, (m = n.copy ∨ (∀ k s, (ask k s).1 = none) ∧ m = (n.replace ask s).1) →
      m.cacheKey = n.cacheKey ∧ m.iterate.map dataType = n.iterate.map dataType ∧
      m.relations = n.relations ∧ (∀ compiler : Compiler, compiler.compile m = compiler.compile n) ∧
      (n.BuiltIn → (n.agrees m = true ↔ ∀ v ∈ n.boundValues, v.isNaN = false)) := by
  have hmakes := makes_calls ask n s
  refine ⟨hmakes.noted, hmakes.performed, hmakes.replaced, hmakes.replaced.perm,
    fun h => replace_of_never h n s, fun m hm => ?_⟩
  obtain rfl : m = n := by
    rcases hm with rfl | ⟨hnever, rfl⟩
    · exact n.copy_eq
    · exact (replace_of_never hnever n s).1
  refine ⟨rfl, rfl, rfl, fun _ => rfl, fun hbuiltIn => ?_⟩
  rw [agrees_self_iff, values_eq_boundValues m hbuiltIn]

/-- The free rooms above a floor, sorted by their numbers. -/
def freeRooms : Node :=
  let above := (column "floor").op .gt (literal (.int 2))
  select { Select.ofColumns [column "number"] with
    criterion := some above, orderBy := [column "number"] }

/-- A question that counts how often it is asked, and never answers. -/
def count : Node → StateM Nat (Option Node) := fun _ asked => (none, asked + 1)

/-- The criterion comes to its turn after the order, and six nodes are asked about. -/
theorem replaced_calls_freeRooms :
    (∀ n asked, (count n asked).1 = none) ∧ freeRooms.BuiltIn ∧
      freeRooms.replace count 0 = (freeRooms, 6) ∧
      ((freeRooms.calls count 0).map Call.node).map tag =
        ["select", "column", "column", "binary", "column", "bindparam"] ∧
      freeRooms.copy.cacheKey = freeRooms.cacheKey ∧ freeRooms.agrees freeRooms.copy = true := by
  have hnever : ∀ n asked, (count n asked).1 = none := fun _ _ => rfl
  have hbuiltIn : freeRooms.BuiltIn := by decide
  obtain ⟨-, -, -, -, hnone, hsame⟩ := replaced_calls count freeRooms 0
  obtain ⟨hresult, hcalls⟩ := hnone hnever
  obtain ⟨hkey, -, -, -, hagrees⟩ := hsame freeRooms.copy (.inl rfl)
  refine ⟨hnever, hbuiltIn, Prod.ext hresult rfl, ?_, hkey, (hagrees hbuiltIn).mpr (by decide)⟩
  rw [hcalls]
  rfl

end Node

end SqlClause
