import Mathlib.Data.List.Perm.Basic
import SqlClause.Proofs.BoundValues
import SqlClause.Proofs.Shape

/-!
# The order of visits

A clause can be taken apart into a frame, which is the clause without its parts, and the parts in
the order in which they are visited. Visiting a clause is visiting this list and putting the results
into the frame; all that the kinds of clauses differ in is their lists. They are the lists of the
parts, except that in a statement the criterion comes last.

* `Clause.visited_perm`: all parts are visited, each once;
* `Clause.eq_of_frame`: a clause is known by its frame and what is visited in it;
* **`Clause.visited_traverse`**, `Clause.frame_traverse`: a visit, from the list of visits;
* `Node.visitOrder_eq_preorder`: without statements, nodes are visited in preorder.
-/

namespace SqlClause

/-! ## 1. Frames -/

namespace Attribute

variable {α : Type}

/-- The attribute without its parts, of which only the places are left. -/
def frame (a : Attribute α) : Attribute Unit := a.map fun _ => ()

/-- An attribute is known by its frame and its parts. -/
theorem eq_of_frame {a b : Attribute α} (hframe : a.frame = b.frame) (hparts : a.parts = b.parts) :
    a = b := by
  cases a with
  | element part =>
      cases b with
      | element => exact congrArg element (List.singleton_inj.mp hparts)
      | _ => cases hframe
  | optionalElement part =>
      cases b with
      | optionalElement other =>
          rcases part with _ | part <;> rcases other with _ | other
          · rfl
          · cases hframe
          · cases hframe
          · exact congrArg (optionalElement ∘ some) (List.singleton_inj.mp hparts)
      | _ => cases hframe
  | elementList parts =>
      cases b with
      | elementList => exact congrArg elementList hparts
      | _ => cases hframe
  | _ => cases b <;> first | cases hframe; rfl | cases hframe

/-- Frames have a place for each part. -/
theorem length_parts_of_frame {a b : Attribute α} (hframe : a.frame = b.frame) :
    a.parts.length = b.parts.length := by
  have hlength : ∀ a : Attribute α, a.parts.length = a.frame.parts.length := by
    intro a
    rw [frame, parts_map, List.length_map]
  rw [hlength, hlength, hframe]

end Attribute

/-- The lists of a statement after its columns. -/
def Select.laterLists {α : Type} (s : Select α) : List α :=
  s.groupBy ++ s.orderBy ++ s.distinctOn ++ s.preColumns ++ s.postCriteria ++ s.postBody

namespace Clause

variable {α β : Type}

/-- The clause without its parts: its kind, what else it says, and the places of its parts. -/
def frame (c : Clause α) : Clause Unit := c.map fun _ => ()

/-- The parts of the clause in the order of visits. -/
def visited : Clause α → List α
  | select s => s.columns ++ (s.laterLists ++ s.criterion.toList)
  | c => c.parts

theorem parts_select (s : Select α) :
    (select s).parts = s.columns ++ (s.criterion.toList ++ s.laterLists) := by
  simp [parts, attributes, Attribute.parts, Select.laterLists]

theorem visited_map (f : α → β) (c : Clause α) : (c.map f).visited = c.visited.map f := by
  cases c with
  | select s => simp [map, Select.map, visited, Select.laterLists, Option.toList_map]
  | _ => exact parts_map f _

/-- **All parts are visited, each once.** -/
theorem visited_perm (c : Clause α) : c.visited.Perm c.parts := by
  cases c with
  | select s =>
      rw [parts_select]
      exact List.perm_append_comm.append_left s.columns
  | _ => exact List.Perm.refl _

theorem mem_visited {c : Clause α} {x : α} : x ∈ c.visited ↔ x ∈ c.parts := c.visited_perm.mem_iff

theorem map_id (c : Clause α) : c.map id = c := by
  cases c <;> simp [map, Select.map_id, Attribute.map_id]

/-- A list of attributes is known by their names, their frames and the parts of all of them. -/
theorem eq_of_frames : ∀ {as bs : List (String × Attribute α)},
    (as.map fun a => (a.1, a.2.frame)) = (bs.map fun b => (b.1, b.2.frame)) →
    (as.flatMap fun a => a.2.parts) = (bs.flatMap fun b => b.2.parts) → as = bs
  | [], [], _, _ => rfl
  | [], _ :: _, hframes, _ => nomatch hframes
  | _ :: _, [], hframes, _ => nomatch hframes
  | a :: as, b :: bs, hframes, hparts => by
      obtain ⟨hhead, hrest⟩ := List.cons.inj hframes
      obtain ⟨hname, hframe⟩ := Prod.mk.inj hhead
      rw [List.flatMap_cons, List.flatMap_cons] at hparts
      obtain ⟨hown, hothers⟩ := List.append_inj hparts (Attribute.length_parts_of_frame hframe)
      rw [Prod.ext hname (Attribute.eq_of_frame hframe hown), eq_of_frames hrest hothers]

section Frame

variable {c d : Clause α}

/-- The kind can be told from the frame, -/
theorem sameKind_of_frame (hframe : c.frame = d.frame) : c.sameKind d = true := by
  rw [sameKind_iff]
  exact ⟨by simpa [frame] using congrArg isCustom hframe,
    by simpa [frame] using congrArg tag hframe⟩

/-- and so can all attributes but for the parts that they hold. -/
theorem attributes_of_frame (hframe : c.frame = d.frame) :
    (c.attributes.map fun a => (a.1, a.2.frame)) = d.attributes.map fun a => (a.1, a.2.frame) := by
  simpa [frame, attributes_map, Attribute.frame] using congrArg attributes hframe

/-- **A clause is known by its frame and what is visited in it.** -/
theorem eq_of_frame (hframe : c.frame = d.frame) (hvisited : c.visited = d.visited) : c = d := by
  have hkind := sameKind_of_frame hframe
  have hof : c.parts = d.parts → c = d := fun hparts =>
    eq_of_attributes hkind (eq_of_frames (attributes_of_frame hframe) hparts)
  cases sameConstructor_of_sameKind hkind with
  | @select s s' =>
      have hfields : s.map (fun _ => ()) = s'.map fun _ => () := select.inj hframe
      have hcolumns : s.columns.length = s'.columns.length := by
        simpa [Select.map] using congrArg (·.columns.length) hfields
      have hcriterion : s.criterion.toList.length = s'.criterion.toList.length := by
        simpa [Select.map, Option.toList_map] using congrArg (·.criterion.toList.length) hfields
      obtain ⟨hcolumns, hrest⟩ := List.append_inj hvisited hcolumns
      obtain ⟨hlists, hcriterion⟩ := List.append_inj' hrest hcriterion
      exact hof (by rw [parts_select, parts_select, hcolumns, hlists, hcriterion])
  | _ => exact hof hvisited

end Frame

end Clause

/-! ## 2. Visits -/

section Visits

variable {m : Type → Type} [Monad m] [LawfulMonad m] {α β : Type}

theorem Attribute.parts_traverse (f : α → m β) (a : Attribute α) :
    Attribute.parts <$> a.traverse f = a.parts.mapM f := by
  cases a with
  | optionalElement part => cases part <;> simp [traverse, parts]
  | _ => simp [traverse, parts]

/-- Visiting a list of attributes is visiting the list of their parts. -/
theorem Attribute.visited_traverse (f : α → m β) : ∀ as : List (String × Attribute α),
    (fun bs => bs.flatMap fun b : String × Attribute β => b.2.parts) <$>
        (as.mapM fun a => do return (a.1, ← a.2.traverse f)) =
      (as.flatMap fun a => a.2.parts).mapM f
  | [] => by simp
  | a :: as => by
      rw [List.flatMap_cons, List.mapM_append, ← parts_traverse, ← visited_traverse f as]
      simp

theorem Select.visited_traverse (f : α → m β) (s : Select α) :
    (fun t => (Clause.select t).visited) <$> s.traverse f = (Clause.select s).visited.mapM f := by
  rcases s with ⟨_, _ | criterion⟩ <;>
    simp [traverse, Clause.visited, laterLists, List.append_assoc]

/-- **Visiting a clause is visiting the list of its parts.** -/
theorem Clause.visited_traverse (f : α → m β) (c : Clause α) :
    visited <$> c.traverse f = c.visited.mapM f := by
  cases c with
  | select s =>
      rw [← s.visited_traverse f]
      simp [traverse]
  | custom tag attributes =>
      refine Eq.trans ?_ (Attribute.visited_traverse f attributes)
      simp [traverse, visited, parts, Clause.attributes]
  | _ => simp [traverse, visited, parts, attributes, Attribute.parts]

/-- Visits without effects do something to the parts. -/
theorem Clause.traverse_pure (f : α → β) (c : Clause α) :
    c.traverse (fun x => (pure (f x) : m β)) = pure (c.map f) := by
  have hattribute : ∀ a : Attribute α,
      a.traverse (fun x => (pure (f x) : m β)) = pure (a.map f) := by
    intro a
    cases a with
    | optionalElement part => cases part <;> simp [Attribute.traverse, Attribute.map]
    | _ => simp [Attribute.traverse, Attribute.map]
  cases c with
  | select s => rcases s with ⟨_, _ | _⟩ <;> simp [traverse, Select.traverse, map, Select.map]
  | _ => simp [traverse, map, hattribute]

end Visits

/-! ## 3. Visits with a state -/

section State

variable {σ α β : Type} (f : α → StateM σ β)

/-- What comes next starts from the result and the state that are left. -/
theorem bind_of_eq {x : StateM σ α} {a : α} {s s' : σ} (h : x s = (a, s')) (f : α → StateM σ β) :
    (x >>= f) s = f a s' := by
  show StateT.bind x f s = _
  rw [StateT.bind, h]
  rfl

theorem mapM_cons_of_eq {f : α → StateM σ β} {x : α} {xs : List α} {y : β} {ys : List β}
    {s s' s'' : σ} (hx : f x s = (y, s')) (hxs : xs.mapM f s' = (ys, s'')) :
    (x :: xs).mapM f s = (y :: ys, s'') := by
  rw [List.mapM_cons, bind_of_eq hx, bind_of_eq hxs]
  rfl

theorem mapM_append_of_eq {f : α → StateM σ β} {xs more : List α} {ys ys' : List β}
    {s s' s'' : σ} (hxs : xs.mapM f s = (ys, s')) (hmore : more.mapM f s' = (ys', s'')) :
    (xs ++ more).mapM f s = (ys ++ ys', s'') := by
  rw [List.mapM_append, bind_of_eq hxs, bind_of_eq hmore]
  rfl

theorem map_unit_mapM : ∀ (xs : List α) (s : σ),
    ((xs.mapM f s).1.map fun _ => ()) = xs.map fun _ => ()
  | [], _ => rfl
  | x :: xs, s => by
      rw [List.mapM_cons]
      exact congrArg (() :: ·) (map_unit_mapM xs (f x s).2)

theorem Attribute.frame_traverse (a : Attribute α) (s : σ) :
    (a.traverse f s).1.frame = a.frame := by
  cases a with
  | optionalElement part => cases part <;> rfl
  | elementList parts => exact congrArg elementList (map_unit_mapM f parts s)
  | _ => rfl

theorem Attribute.frames_traverse : ∀ (as : List (String × Attribute α)) (s : σ),
    let visit : StateM σ (List (String × Attribute β)) :=
      as.mapM fun a => do return (a.1, ← a.2.traverse f)
    ((visit s).1.map fun b => (b.1, b.2.frame)) = as.map fun a => (a.1, a.2.frame)
  | [], _ => rfl
  | a :: as, s => by
      intro visit
      have hvisit : visit = do
          let b ← a.2.traverse f
          let bs ← as.mapM fun a => do return (a.1, ← a.2.traverse f)
          return (a.1, b) :: bs := by simp [visit]
      rw [hvisit]
      exact congrArg₂ (fun frame rest => (a.1, frame) :: rest) (frame_traverse f a.2 s)
        (frames_traverse as (a.2.traverse f s).2)

theorem Select.frame_traverse (t : Select α) (s : σ) :
    (t.traverse f s).1.map (fun _ => ()) = t.map fun _ => () := by
  have hlist := map_unit_mapM f
  rcases t with ⟨_, _ | criterion⟩ <;> simp only [map, Select.mk.injEq] <;>
    exact ⟨hlist _ _, rfl, hlist _ _, hlist _ _, rfl, rfl, rfl, hlist _ _, rfl, hlist _ _,
      hlist _ _, hlist _ _⟩

/-- **A visit leaves the frame of a clause as it is.** -/
theorem Clause.frame_traverse (c : Clause α) (s : σ) : (c.traverse f s).1.frame = c.frame := by
  cases c with
  | list clauses op => exact congrArg (list · op) (map_unit_mapM f clauses s)
  | function name arguments type =>
      exact congrArg (function name · type) (map_unit_mapM f arguments s)
  | distinctOn terms => exact congrArg distinctOn (map_unit_mapM f terms s)
  | select t => exact congrArg select (t.frame_traverse f s)
  | custom tag attributes => exact congrArg (custom tag) (Attribute.frames_traverse f attributes s)
  | _ => rfl

/-- **A visit gives each part its result and changes nothing else.** -/
theorem Clause.traverse_eq_iff {f : α → StateM σ β} {c : Clause α} {d : Clause β} {s s' : σ} :
    c.traverse f s = (d, s') ↔ d.frame = c.frame ∧ c.visited.mapM f s = (d.visited, s') := by
  have hvisited : ((c.traverse f s).1.visited, (c.traverse f s).2) = c.visited.mapM f s :=
    congrFun (c.visited_traverse f) s
  have hframe := c.frame_traverse f s
  constructor
  · intro h
    rw [h] at hvisited hframe
    exact ⟨hframe, hvisited.symm⟩
  · rintro ⟨hsame, hmapM⟩
    obtain ⟨hresults, hstate⟩ := Prod.mk.inj (hvisited.trans hmapM)
    exact Prod.ext (eq_of_frame (hframe.trans hsame.symm) hresults) hstate

end State

/-! ## 4. Whole trees in the order of visits -/

namespace Node

/-- A node and its descendants, each before what is below it, part by part as they are visited. -/
def visitOrder : Node → List Node := fold fun n c => n :: c.visited.flatten

theorem visitOrder_mk (c : Clause Node) :
    (mk c).visitOrder = mk c :: (c.visited.map visitOrder).flatten := by
  rw [visitOrder, fold_mk, Clause.visited_map]

/-- **Without statements, nodes are visited in preorder.** -/
theorem visitOrder_eq_preorder : ∀ n : Node, n.SelectFree → n.visitOrder = n.preorder := by
  apply induction
  intro c ih h
  obtain ⟨hselect, hparts⟩ := selectFree_mk.mp h
  have hvisited : c.visited = c.parts := by
    cases c with
    | select s => exact absurd rfl (hselect s)
    | _ => rfl
  rw [visitOrder_mk, preorder_mk, hvisited, List.map_congr_left fun n hn => ih n hn (hparts n hn)]

end Node

end SqlClause
