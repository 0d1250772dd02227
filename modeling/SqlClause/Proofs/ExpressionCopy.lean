import SqlClause.Proofs.Replacement
import SqlClause.Proofs.TableCopy

/-!
# Copies of expressions

An expression is copied by a walk that binds every column of the source anew. If the target lacks
one the walk notes this and goes on, and in the end the first note is the failure. So the failure is
due to the first reference to the source, in the order of visits, whose column the target lacks; if
there is none, the copy is the expression with these references bound to the target. From another
table that knows the columns one comes back in the same way, as long as nothing else in the
expression is taken for a column of that table.

* `Node.replace_rebindColumnOn`: the walk, with what it has noted;
* `copyExpression_eq_rebind`: the walk that stops at a failure comes to the same;
* `copyExpression_eq`: the outcome of a copy;
* `CopiedFrom`, `forall₂_copiedFrom`: the copy, node by node;
* `copyExpression_back`: there and back again;
* **`copyExpression_rebinds`**: what a copy of an expression is.
-/

namespace SqlClause

/-! ## 1. References in the order of visits -/

namespace Table

/-- The reference is to a column of the source, and the table lacks it. -/
def misses (t : Table) (source : Relation) (r : ColumnRef) : Bool :=
  r.table == some source && (t.column? r.name).isNone

/-- The failure that is due to the reference. -/
def notFound (t : Table) (r : ColumnRef) : Error := .columnNotFound t.name r.name

theorem misses_iff {t : Table} {source : Relation} {r : ColumnRef} :
    t.misses source r = true ↔ r.table = some source ∧ t.column? r.name = none := by
  simp [misses]

/-- A reference is to another table and stays as it is, or it becomes one to a column of the
table. -/
theorem rebound_cases {t : Table} {source : Relation} {r : ColumnRef}
    (h : t.misses source r = false) :
    (r.table ≠ some source ∧ t.rebound (some source) r = r) ∨
      ∃ c, r.table = some source ∧ t.column? r.name = some c ∧
        t.rebound (some source) r = c.ref := by
  by_cases htable : r.table = some source
  · cases hcolumn : t.column? r.name with
    | none =>
        have hmisses := misses_iff.mpr ⟨htable, hcolumn⟩
        rw [h] at hmisses
        cases hmisses
    | some c => exact .inr ⟨c, htable, rfl, rebound_of_column? htable hcolumn⟩
  · exact .inl ⟨htable, rebound_of_ne htable⟩

theorem misses_eq_false_of_ne {t : Table} {source : Relation} {r : ColumnRef}
    (h : r.table ≠ some source) : t.misses source r = false :=
  Bool.eq_false_iff.mpr fun hmisses => h (misses_iff.mp hmisses).1

theorem misses_eq_false_of_column? {t : Table} {source : Relation} {r : ColumnRef} {c : Column}
    (h : t.column? r.name = some c) : t.misses source r = false := by
  rw [misses, h]
  exact Bool.and_false _

end Table

namespace Node

/-- The references to columns in a tree, in the order of visits. -/
def visitedRefs (n : Node) : List ColumnRef := n.visitOrder.filterMap fun m => m.clause.columnRef?

theorem visitedRefs_mk (c : Clause Node) :
    (mk c).visitedRefs = c.columnRef?.toList ++ c.visited.flatMap visitedRefs := by
  rw [visitedRefs, visitOrder_mk]
  exact filterMap_cons_flatten ..

theorem mem_visitedRefs {r : ColumnRef} : ∀ n : Node, r ∈ n.visitedRefs ↔ r ∈ n.columnRefs := by
  apply induction
  intro c ih
  have hbelow : (∃ n ∈ c.visited, r ∈ n.visitedRefs) ↔ ∃ n ∈ c.parts, r ∈ n.columnRefs := by
    simp only [Clause.mem_visited]
    exact exists_congr fun n => and_congr_right fun hn => ih n hn
  rw [visitedRefs_mk, columnRefs_mk, List.mem_append, List.mem_append, List.mem_flatMap,
    List.mem_flatMap, hbelow]

theorem visitedRefs_of_selectFree {n : Node} (h : n.SelectFree) :
    n.visitedRefs = n.iterate.filterMap fun m => m.clause.columnRef? := by
  rw [visitedRefs, visitOrder_eq_preorder n h, iterate_eq_preorder]

end Node

/-! ## 2. The walk -/

section Walk

/-- The first of the notes of a list is kept. -/
theorem mapM_of_notes {α β ε : Type} {f : α → StateM (Option ε) β} {result : α → β}
    {note : α → Option ε} : ∀ {as : List α},
    (∀ a ∈ as, ∀ before, f a before = (result a, before.or (note a))) →
    ∀ before, as.mapM f before = (as.map result, before.or (as.findSome? note))
  | [], _, before => by
      rw [List.findSome?_nil, Option.or_none]
      rfl
  | a :: as, h, before => by
      have hrest := mapM_of_notes (fun b hb => h b (List.mem_cons_of_mem _ hb)) (before.or (note a))
      have hnotes : (before.or (note a)).or (as.findSome? note) =
          before.or ((a :: as).findSome? note) := by
        rw [List.findSome?_cons, Option.or_assoc]
        cases note a <;> rfl
      rw [mapM_cons_of_eq (h a List.mem_cons_self before) hrest, hnotes]
      rfl

variable {source : Relation} {t : Table}

/-- The first of the references below the parts is the first of those below the first part that has
one. -/
theorem find?_flatMap_visitedRefs (ns : List Node) :
    ((ns.flatMap Node.visitedRefs).find? (t.misses source)).map t.notFound =
      ns.findSome? fun n => (n.visitedRefs.find? (t.misses source)).map t.notFound := by
  rw [List.find?_flatMap, List.map_findSome?]
  rfl

/-- A reference to the source becomes the column of the name, or is noted if there is none. -/
theorem replace_rebindColumnOn_column (r : ColumnRef) (before : Option Error) :
    Node.replace (rebindColumnOn source t) ⟨.column r⟩ before =
      (⟨.column (t.rebound (some source) r)⟩,
        before.or (([r].find? (t.misses source)).map t.notFound)) := by
  by_cases hmisses : t.misses source r = true
  · obtain ⟨htable, hcolumn⟩ := Table.misses_iff.mp hmisses
    have hmissing : t.require r.name = .error (t.notFound r) :=
      Table.require_eq_error_iff.mpr ⟨by rw [Table.expr?, hcolumn]; rfl, rfl⟩
    have hask : rebindColumn source t ⟨.column r⟩ = some <$> t.require r.name := if_pos htable
    have hnote : rebindColumnOn source t ⟨.column r⟩ before =
        (none, before.or (some (t.notFound r))) := by
      rw [rebindColumnOn, hask, hmissing]
      rfl
    rw [Node.replace_of_none (d := .column r) hnote rfl, Table.rebound_of_column?_eq_none hcolumn,
      List.find?_cons_of_pos hmisses]
    rfl
  · rw [List.find?_cons_of_neg hmisses, List.find?_nil, Option.map_none, Option.or_none]
    rcases Table.rebound_cases (Bool.eq_false_iff.mpr hmisses) with
      ⟨htable, hsame⟩ | ⟨column, htable, hcolumn, hnew⟩
    · have hask : rebindColumn source t ⟨.column r⟩ = .ok none := if_neg htable
      have hnone : rebindColumnOn source t ⟨.column r⟩ before = (none, before) := by
        rw [rebindColumnOn, hask]
      rw [Node.replace_of_none (d := .column r) hnone rfl, hsame]
    · have hfound : t.require r.name = .ok column.expr :=
        Table.require_eq_ok_iff.mpr (by rw [Table.expr?, hcolumn]; rfl)
      have hask : rebindColumn source t ⟨.column r⟩ = some <$> t.require r.name := if_pos htable
      have hanswer : rebindColumnOn source t ⟨.column r⟩ before = (some column.expr, before) := by
        rw [rebindColumnOn, hask, hfound]
        rfl
      rw [Node.replace_of_answer hanswer, hnew]
      rfl

/-- **The walk binds what it can and notes the first reference that it cannot bind**, unless there
is a note already. -/
theorem replace_rebindColumnOn : ∀ (n : Node) (before : Option Error),
    n.replace (rebindColumnOn source t) before =
      (n.mapColumns (t.rebound (some source)),
        before.or ((n.visitedRefs.find? (t.misses source)).map t.notFound)) := by
  apply Node.induction
  intro c ih before
  rw [Node.visitedRefs_mk, Node.mapColumns_mk]
  cases hreference : c.columnRef? with
  | some r =>
      obtain rfl := Clause.eq_column_of_columnRef? hreference
      exact replace_rebindColumnOn_column r before
  | none =>
      have hnone : rebindColumnOn source t ⟨c⟩ before = (none, before) := by
        cases c with
        | column => cases hreference
        | _ => rfl
      have hparts := mapM_of_notes (fun n hn => ih n (Clause.mem_visited.mp hn)) before
      rw [← Clause.visited_map, ← find?_flatMap_visitedRefs] at hparts
      have hframe : (c.map (Node.mapColumns (t.rebound (some source)))).frame = c.frame :=
        Clause.map_map _ _ c
      rw [Node.replace_of_none hnone (Clause.traverse_eq_iff.mpr ⟨hframe, hparts⟩),
        Clause.mapColumn_of_columnRef?_eq_none hreference]
      rfl

/-! ## 3. The outcome -/

/-- **The outcome of a copy** is the failure that is due to the first missing column, or the
expression with its references to the source bound anew. -/
theorem copyExpression_eq (source : Relation) (t : Table) (n : Node) :
    copyExpression (some source) (some t) n =
      match n.visitedRefs.find? (t.misses source) with
      | some r => .error (t.notFound r)
      | none => .ok (n.mapColumns (t.rebound (some source))) := by
  rw [copyExpression, replace_rebindColumnOn]
  cases n.visitedRefs.find? (t.misses source) <;> rfl

/-- A clause fails with the failure of the first part visited that fails. -/
theorem Clause.failure?_traverse {ε α β : Type} (f : α → Except ε β) (c : Clause α) :
    failure? (c.traverse f) = c.visited.findSome? fun a => failure? (f a) := by
  have hvisited : failure? (visited <$> c.traverse f) = failure? (c.traverse f) := by
    cases c.traverse f <;> rfl
  rw [← hvisited, visited_traverse, failure?_mapM]

/-- The walk that stops at a failure stops at the same reference. -/
theorem failure?_rebind : ∀ n : Node, failure? (rebind (some source) (some t) n) =
    (n.visitedRefs.find? (t.misses source)).map t.notFound := by
  apply Node.induction
  intro c ih
  rw [Node.visitedRefs_mk]
  cases hreference : c.columnRef? with
  | some r =>
      obtain rfl := Clause.eq_column_of_columnRef? hreference
      show _ = ([r].find? (t.misses source)).map t.notFound
      have houtcome := resultUnless_rebind_column source t r
      cases hrebind : rebind (some source) (some t) ⟨.column r⟩ with
      | error e =>
          rw [hrebind] at houtcome
          obtain ⟨r', hr', htable, hcolumn, rfl⟩ := houtcome
          obtain rfl := List.mem_singleton.mp hr'
          rw [List.find?_cons_of_pos (Table.misses_iff.mpr ⟨htable, hcolumn⟩)]
          rfl
      | ok m =>
          rw [hrebind] at houtcome
          have hpresent : ¬ t.misses source r = true := fun h =>
            have hmisses := Table.misses_iff.mp h
            houtcome.2 _ ⟨r, List.mem_singleton_self r, hmisses.1, hmisses.2, rfl⟩
          rw [List.find?_cons_of_neg hpresent]
          rfl
  | none =>
      have hask : rebindColumn source t ⟨c⟩ = .ok none := by
        cases c with
        | column => cases hreference
        | _ => rfl
      have hparts := findSome?_congr fun n hn => ih n (Clause.mem_visited.mp hn)
      rw [rebind_of_none hask, failure?_bindPure, Clause.failure?_traverse, hparts,
        ← find?_flatMap_visitedRefs]
      rfl

/-- **Whether a walk goes on after a failure makes no difference to its outcome.** -/
theorem copyExpression_eq_rebind (source : Option Relation) (t : Option Table) (n : Node) :
    copyExpression source t n = rebind source t n := by
  rcases source with _ | source
  · exact congrArg Except.ok n.copy_eq
  rcases t with _ | t
  · exact congrArg Except.ok n.copy_eq
  have hfailure : failure? (rebind (some source) (some t) n) = _ := failure?_rebind n
  rw [copyExpression_eq]
  cases hfirst : n.visitedRefs.find? (t.misses source) with
  | some r =>
      rw [hfirst] at hfailure
      exact (failure?_eq_some_iff.mp hfailure).symm
  | none =>
      rw [hfirst] at hfailure
      obtain ⟨m, hm⟩ := failure?_eq_none_iff.mp hfailure
      rw [hm, ((resultUnless_rebind source t n).eq_ok_iff.mp hm).1]

end Walk

/-- The copy that there is if no reference is to a missing column. -/
theorem copyExpression_eq_ok_iff {source : Relation} {t : Table} {n m : Node} :
    copyExpression (some source) (some t) n = .ok m ↔
      (∀ r ∈ n.columnRefs, t.misses source r = false) ∧
        m = n.mapColumns (t.rebound (some source)) := by
  have hnone : n.visitedRefs.find? (t.misses source) = none ↔
      ∀ r ∈ n.columnRefs, t.misses source r = false := by
    simp only [List.find?_eq_none, Node.mem_visitedRefs, Bool.not_eq_true]
  rw [copyExpression_eq, ← hnone]
  cases n.visitedRefs.find? (t.misses source) <;> simp [eq_comm]

theorem copyExpression_eq_error_iff {source : Relation} {t : Table} {n : Node} {e : Error} :
    copyExpression (some source) (some t) n = .error e ↔
      ∃ r, n.visitedRefs.find? (t.misses source) = some r ∧ e = t.notFound r := by
  rw [copyExpression_eq]
  cases n.visitedRefs.find? (t.misses source) <;> simp [eq_comm]

/-! ## 4. The copy, node by node -/

namespace Node

/-- Nothing happens to the tree if nothing happens to its references. -/
theorem mapColumns_id : ∀ n : Node, n.mapColumns id = n := by
  apply induction
  intro c ih
  have hown : c.mapColumn id = c := by
    cases c <;> rfl
  rw [mapColumns_mk, hown, Clause.map_congr (g := id) ih, Clause.map_id]

theorem preorder_mapColumns (f : ColumnRef → ColumnRef) : ∀ n : Node,
    (n.mapColumns f).preorder = n.preorder.map (mapColumns f) := by
  apply induction
  intro c ih
  have hparts : (c.parts.map (mapColumns f)).map preorder =
      (c.parts.map preorder).map (List.map (mapColumns f)) := by
    rw [List.map_map, List.map_map]
    exact List.map_congr_left ih
  rw [mapColumns_mk, preorder_mk, preorder_mk, List.map_cons, mapColumns_mk, Clause.parts_map,
    Clause.parts_mapColumn, hparts, List.map_flatten]

theorem tag_mapColumns (f : ColumnRef → ColumnRef) (n : Node) : (n.mapColumns f).tag = n.tag := by
  obtain ⟨c⟩ := n
  rw [mapColumns_mk]
  cases c <;> rfl

theorem boundValue?_mapColumns (f : ColumnRef → ColumnRef) (n : Node) :
    (n.mapColumns f).boundValue? = n.boundValue? := by
  obtain ⟨c⟩ := n
  rw [mapColumns_mk]
  cases c <;> rfl

theorem boundValues_mapColumns (f : ColumnRef → ColumnRef) (n : Node) :
    (n.mapColumns f).boundValues = n.boundValues := by
  rw [boundValues, preorder_mapColumns, List.filterMap_map, boundValues]
  exact List.filterMap_congr fun m _ => boundValue?_mapColumns f m

end Node

/-- What a node of an expression is in a copy. -/
inductive CopiedFrom (source : Relation) (t : Table) : Node → Node → Prop where
  /-- A column of the source is the target's expression for the column of that name. -/
  | rebound {r : ColumnRef} {m : Node} (htable : r.table = some source)
      (hcolumn : t.expr? r.name = some m) : CopiedFrom source t ⟨.column r⟩ m
  /-- Every other column is as it was. -/
  | other {r : ColumnRef} (htable : r.table ≠ some source) :
      CopiedFrom source t ⟨.column r⟩ ⟨.column r⟩
  /-- What is no column is as it was, with other parts in the same places. -/
  | inner {c d : Clause Node} (hcolumn : c.columnRef? = none) (hframe : d.frame = c.frame) :
      CopiedFrom source t ⟨c⟩ ⟨d⟩

section Copy

variable {source : Relation} {t : Table}

theorem copiedFrom_mapColumns {n : Node}
    (h : ∀ r ∈ n.clause.columnRef?, t.misses source r = false) :
    CopiedFrom source t n (n.mapColumns (t.rebound (some source))) := by
  obtain ⟨c⟩ := n
  rw [Node.mapColumns_mk]
  cases hreference : c.columnRef? with
  | none =>
      rw [Clause.mapColumn_of_columnRef?_eq_none hreference]
      exact .inner hreference (Clause.map_map _ _ c)
  | some r =>
      obtain rfl := Clause.eq_column_of_columnRef? hreference
      show CopiedFrom source t ⟨.column r⟩ ⟨.column (t.rebound (some source) r)⟩
      rcases Table.rebound_cases (h r rfl) with ⟨htable, hsame⟩ | ⟨column, htable, hcolumn, hnew⟩
      · rw [hsame]
        exact .other htable
      · rw [hnew]
        exact .rebound htable (by rw [Table.expr?, hcolumn]; rfl)

/-- **A copy is what it was, node by node**, but for the columns of the source. -/
theorem forall₂_copiedFrom {n : Node} (h : ∀ r ∈ n.columnRefs, t.misses source r = false) :
    List.Forall₂ (CopiedFrom source t) n.iterate
      (n.mapColumns (t.rebound (some source))).iterate := by
  rw [Node.iterate_eq_preorder, Node.iterate_eq_preorder, Node.preorder_mapColumns,
    List.forall₂_map_right_iff, List.forall₂_same]
  intro m hm
  exact copiedFrom_mapColumns fun r hr => h r (List.mem_filterMap.mpr ⟨m, hm, hr⟩)

/-- The columns of a table that can be made belong to it. -/
theorem Table.Reachable.exists_sound (h : t.Reachable) : ∃ homes, Ledger.Sound ⟨t, homes⟩ := by
  induction h with
  | ofName name => exact ⟨[], Ledger.sound_ofName name⟩
  | withSchema _ schema ih => exact ⟨_, ih.choose_spec.withSchema schema⟩
  | addColumn _ c ih => exact ⟨_, ih.choose_spec.addColumn c⟩
  | append _ _ hu ih => exact ⟨_, ih.choose_spec.append hu⟩
  | copyAs _ hu => exact ⟨_, Ledger.sound_copyAs hu⟩

theorem Table.Reachable.table_column? (h : t.Reachable) {name : String} {c : Column}
    (hcolumn : t.column? name = some c) : c.table = some t.relation := by
  obtain ⟨homes, hsound⟩ := h.exists_sound
  exact hsound.columns c (List.mem_of_find?_eq_some hcolumn)

/-- No reference to the source is left, unless the source is the target. -/
theorem table_rebound_ne (ht : t.Reachable) (hne : source ≠ t.relation) {r : ColumnRef}
    (h : t.misses source r = false) : (t.rebound (some source) r).table ≠ some source := by
  rcases Table.rebound_cases h with ⟨htable, hsame⟩ | ⟨column, -, hcolumn, hnew⟩
  · rw [hsame]
    exact htable
  · rw [hnew]
    show column.table ≠ some source
    rw [ht.table_column? hcolumn]
    exact fun heq => hne (Option.some.inj heq).symm

/-! ## 5. There and back again -/

/-- The references of a tree to the first table are to its columns as they are and the second table
knows their names, and no reference is to the second table. -/
structure Returnable (a b : Table) (n : Node) : Prop where
  own : ∀ r ∈ n.columnRefs, r.table = some a.relation → a.expr? r.name = some ⟨.column r⟩
  known : ∀ r ∈ n.columnRefs, r.table = some a.relation → ∃ c, b.column? r.name = some c
  fresh : ∀ r ∈ n.columnRefs, r.table ≠ some b.relation

variable {a b : Table} {n : Node}

/-- The second table has what there is to be bound. -/
theorem Returnable.misses_there (h : Returnable a b n) {r : ColumnRef} (hr : r ∈ n.columnRefs) :
    b.misses a.relation r = false := by
  by_cases htable : r.table = some a.relation
  · obtain ⟨c, hc⟩ := h.known r hr htable
    exact Table.misses_eq_false_of_column? hc
  · exact Table.misses_eq_false_of_ne htable

/-- What becomes of a reference on the way there can be bound on the way back, and becomes the
reference again. -/
theorem Returnable.rebound_rebound (h : Returnable a b n) (hb : b.Reachable) {r : ColumnRef}
    (hr : r ∈ n.columnRefs) :
    a.misses b.relation (b.rebound (some a.relation) r) = false ∧
      a.rebound (some b.relation) (b.rebound (some a.relation) r) = r := by
  rcases Table.rebound_cases (h.misses_there hr) with ⟨-, hsame⟩ | ⟨c, htable, hcolumn, hnew⟩
  · rw [hsame]
    exact ⟨Table.misses_eq_false_of_ne (h.fresh r hr), Table.rebound_of_ne (h.fresh r hr)⟩
  · obtain ⟨d, hd, hexpr⟩ := Option.map_eq_some_iff.mp (h.own r hr htable)
    have hback : a.column? c.ref.name = some d := by
      rw [← hd]
      exact congrArg a.column? (Table.name_of_column? hcolumn)
    have href : d.ref = r := by
      injection hexpr with hclause
      exact Clause.column.inj hclause
    rw [hnew]
    refine ⟨Table.misses_eq_false_of_column? hback, ?_⟩
    rw [Table.rebound_of_column? (hb.table_column? hcolumn) hback, href]

/-- **There and back again an expression is what it was.** -/
theorem copyExpression_back (h : Returnable a b n) (hb : b.Reachable) :
    ∃ m, copyExpression (some a.relation) (some b) n = .ok m ∧
      copyExpression (some b.relation) (some a) m = .ok n := by
  refine ⟨n.mapColumns (b.rebound (some a.relation)), ?_, ?_⟩
  · exact copyExpression_eq_ok_iff.mpr ⟨fun r hr => h.misses_there hr, rfl⟩
  · refine copyExpression_eq_ok_iff.mpr ⟨fun r hr => ?_, ?_⟩
    · rw [Node.columnRefs_mapColumns] at hr
      obtain ⟨r₀, hr₀, rfl⟩ := List.mem_map.mp hr
      exact (h.rebound_rebound hb hr₀).1
    · have hsame : n.mapColumns (a.rebound (some b.relation) ∘ b.rebound (some a.relation)) =
          n.mapColumns id := n.mapColumns_congr fun r hr => (h.rebound_rebound hb hr).2
      rw [Node.mapColumns_mapColumns, hsame, Node.mapColumns_id]

end Copy

/-! ## 6. What a copy is -/

/-- **What a copy of an expression is.** There is none exactly if the expression refers to a column
of the source that the target lacks, and the failure is due to the first of these references in the
order of visits, which without statements is the preorder. Node by node a copy is what the
expression is, but for the columns of the source, which are the target's columns of their names; so
its kinds and values are the same, and nothing refers to the source any more, unless it is the
target. From a second table an expression comes back as it was if the two tables have its columns
and it has none of the second, and it agrees with what it was unless it has a NaN. -/
theorem copyExpression_rebinds (source : Relation) (t : Table) (n : Node) :
    ((∃ e, copyExpression (some source) (some t) n = .error e) ↔
      ∃ r ∈ n.columnRefs, r.table = some source ∧ t.column? r.name = none) ∧
    (∀ e, copyExpression (some source) (some t) n = .error e → ∃ r,
      n.visitedRefs.find? (t.misses source) = some r ∧ e = .columnNotFound t.name r.name) ∧
    (n.SelectFree → n.visitedRefs = n.iterate.filterMap fun m => m.clause.columnRef?) ∧
    (∀ m, copyExpression (some source) (some t) n = .ok m →
      List.Forall₂ (CopiedFrom source t) n.iterate m.iterate ∧
      m.iterate.map Node.tag = n.iterate.map Node.tag ∧ m.boundValues = n.boundValues ∧
      (t.Reachable → source ≠ t.relation → ∀ r ∈ m.columnRefs, r.table ≠ some source)) ∧
    ∀ a b : Table, b.Reachable → Returnable a b n → ∃ m back,
      copyExpression (some a.relation) (some b) n = .ok m ∧
      copyExpression (some b.relation) (some a) m = .ok back ∧ back = n ∧
      (n.agrees back = true ↔ ∀ v ∈ n.values, v.isNaN = false) := by
  refine ⟨⟨?_, ?_⟩, fun e he => copyExpression_eq_error_iff.mp he, Node.visitedRefs_of_selectFree,
    fun m hm => ?_, fun a b hb h => ?_⟩
  · rintro ⟨e, he⟩
    obtain ⟨r, hr, -⟩ := copyExpression_eq_error_iff.mp he
    exact ⟨r, (n.mem_visitedRefs).mp (List.mem_of_find?_eq_some hr),
      Table.misses_iff.mp (List.find?_some hr)⟩
  · rintro ⟨r, hr, hmissing⟩
    cases hcopy : copyExpression (some source) (some t) n with
    | error e => exact ⟨e, rfl⟩
    | ok m =>
        have hpresent := (copyExpression_eq_ok_iff.mp hcopy).1 r hr
        rw [Table.misses_iff.mpr hmissing] at hpresent
        cases hpresent
  · obtain ⟨hpresent, rfl⟩ := copyExpression_eq_ok_iff.mp hm
    refine ⟨forall₂_copiedFrom hpresent, ?_, n.boundValues_mapColumns _, fun ht hne r hr => ?_⟩
    · rw [Node.iterate_eq_preorder, Node.iterate_eq_preorder, Node.preorder_mapColumns,
        List.map_map]
      exact List.map_congr_left fun m _ => m.tag_mapColumns _
    · rw [Node.columnRefs_mapColumns] at hr
      obtain ⟨r₀, hr₀, rfl⟩ := List.mem_map.mp hr
      exact table_rebound_ne ht hne (hpresent r₀ hr₀)
  · obtain ⟨m, hthere, hback⟩ := copyExpression_back h hb
    exact ⟨m, n, hthere, hback, rfl, n.agrees_self_iff⟩

/-- A table of rooms, of which the floor and the number are known. -/
def roomTable (name : String) : Table :=
  (Ledger.run name
    [.addColumn (.ofType "floor" .integer), .addColumn (.ofType "number" .integer)]).table

theorem reachable_roomTable (name : String) : (roomTable name).Reachable := by
  refine Table.reachable_run name _ fun c hc => ?_
  simp at hc

/-- The room is on the floor that is asked for and has a number. -/
def onFloor : Node :=
  ((Node.tableColumn "rooms" "floor" .integer).op .eq (Node.column "floor")).op .and
    ((Node.tableColumn "rooms" "number" .integer).op .gt (Node.literal (.int 0)))

theorem returnable_onFloor : Returnable (roomTable "rooms") (roomTable "annex") onFloor where
  own r hr htable := by
    have hrefs : onFloor.columnRefs = [⟨"floor", some ⟨none, "rooms"⟩, .integer, false⟩,
        ⟨"floor", none, .null, false⟩, ⟨"number", some ⟨none, "rooms"⟩, .integer, false⟩] := rfl
    rw [hrefs, List.mem_cons, List.mem_cons, List.mem_singleton] at hr
    rcases hr with rfl | rfl | rfl
    · rfl
    · cases htable
    · rfl
  known := by
    have hknown : ∀ r ∈ onFloor.columnRefs, r.table = some (roomTable "rooms").relation →
        ((roomTable "annex").column? r.name).isSome := by decide
    exact fun r hr htable => Option.isSome_iff_exists.mp (hknown r hr htable)
  fresh := by decide

/-- The columns of the rooms become columns of the annex, the floor that is asked for does not, and
back again the expression is what it was. A lobby has no floor, and this is what is missed first. -/
theorem copyExpression_rebinds_onFloor :
    onFloor.SelectFree ∧ (roomTable "annex").Reachable ∧
      (⟨none, "rooms"⟩ : Relation) ≠ (roomTable "annex").relation ∧
      Returnable (roomTable "rooms") (roomTable "annex") onFloor ∧
      (∃ m, copyExpression (some ⟨none, "rooms"⟩) (some (roomTable "annex")) onFloor = .ok m ∧
        (∀ r ∈ m.columnRefs, r.table ≠ some ⟨none, "rooms"⟩) ∧
        copyExpression (some ⟨none, "annex"⟩) (some (roomTable "rooms")) m = .ok onFloor) ∧
      copyExpression (some ⟨none, "rooms"⟩) (some (.ofName "lobby")) onFloor =
        .error (.columnNotFound "lobby" "floor") := by
  have hfree : onFloor.SelectFree := Node.selectFree_of_tag (by decide)
  have hreachable : (roomTable "annex").Reachable := reachable_roomTable "annex"
  have hother : (⟨none, "rooms"⟩ : Relation) ≠ (roomTable "annex").relation := by decide
  have hreturn : Returnable (roomTable "rooms") (roomTable "annex") onFloor := returnable_onFloor
  obtain ⟨-, -, -, hcopies, hback⟩ :=
    copyExpression_rebinds ⟨none, "rooms"⟩ (roomTable "annex") onFloor
  obtain ⟨m, _, hm, hm', rfl, -⟩ := hback (roomTable "rooms") (roomTable "annex") hreachable hreturn
  refine ⟨hfree, hreachable, hother, hreturn, ⟨m, hm, ?_, hm'⟩, ?_⟩
  · exact (hcopies m hm).2.2.2 hreachable hother
  · rfl

end SqlClause
