import SqlClause.Proofs.Construction
import SqlClause.Proofs.Rebinding

/-!
# Copies of tables

A table that can be made is copied by rebuilding each of its constraints with its references bound
to the copy. The copy fails only if the table lacks a column that one of these references names. A
copy that is copied has its references bound to the second copy at once, as long as nothing in the
table refers to the first copy beforehand.

* `Constraint.rebuild_rebuild`: a constraint can be rebuilt in two steps;
* `Constraint.resultUnless_copyTo`: when a constraint can be copied, and what becomes of it;
* **`Table.resultUnless_copyAs`**: when a table can be copied, and what the copy is;
* **`Table.copyAs_copyAs`**: a copy of a copy is a copy of the original.
-/

namespace SqlClause

/-! ## 1. Rebuilding constraints -/

/-- The entry with `f` done to its references to columns. -/
def Entry.mapColumns (f : ColumnRef → ColumnRef) : Entry → Entry
  | pending name => pending name
  | resolved n => resolved (n.mapColumns f)

@[simp] theorem Entry.expression_member (e : Entry) : e.member.expression = e := by
  cases e <;> rfl

theorem Entry.mapColumns_mapColumns (f g : ColumnRef → ColumnRef) (e : Entry) :
    (e.mapColumns f).mapColumns g = e.mapColumns (g ∘ f) := by
  cases e with
  | pending name => rfl
  | resolved n => exact congrArg resolved n.mapColumns_mapColumns

theorem Entry.node?_mapColumns (f : ColumnRef → ColumnRef) (e : Entry) :
    (e.mapColumns f).node? = e.node?.map (Node.mapColumns f) := by
  cases e <;> rfl

theorem Entry.mapColumns_congr {f g : ColumnRef → ColumnRef} {e : Entry}
    (h : ∀ n ∈ e.node?, n.mapColumns f = n.mapColumns g) : e.mapColumns f = e.mapColumns g := by
  cases e with
  | pending name => rfl
  | resolved n => exact congrArg resolved (h n rfl)

namespace ExcludeConstraint

/-- The exclusion of the same entries with `f` done to their references, for no table yet. -/
def rebuild (f : ColumnRef → ColumnRef) (c : ExcludeConstraint) : ExcludeConstraint :=
  { ofMembers (c.elements.map fun e => (e.expression.mapColumns f).member)
      (c.elements.map (·.operator)) c.options (c.criterion.map (·.mapColumns f)) with
    listeners := c.listeners }

theorem elements_rebuild (f : ColumnRef → ColumnRef) (c : ExcludeConstraint) :
    (c.rebuild f).elements =
      c.elements.map fun e => .ofMember (e.expression.mapColumns f).member e.operator := by
  show List.zipWith _ (c.elements.map _) (c.elements.map _) = _
  rw [List.zipWith_map, List.zipWith_self]

theorem rebuild_rebuild (f g : ColumnRef → ColumnRef) (home : Relation) (c : ExcludeConstraint) :
    rebuild g { c.rebuild f with parent := some home } = c.rebuild (g ∘ f) := by
  have hmembers : ((c.rebuild f).elements.map fun e => (e.expression.mapColumns g).member) =
      c.elements.map fun e => (e.expression.mapColumns (g ∘ f)).member := by
    rw [elements_rebuild, List.map_map]
    refine List.map_congr_left fun e _ => ?_
    show ((e.expression.mapColumns f).member.expression.mapColumns g).member = _
    rw [Entry.expression_member, Entry.mapColumns_mapColumns]
  have hoperators : (c.rebuild f).elements.map (·.operator) = c.elements.map (·.operator) := by
    rw [elements_rebuild, List.map_map]
    rfl
  have hcriterion : (c.criterion.map (·.mapColumns f)).map (·.mapColumns g) =
      c.criterion.map (·.mapColumns (g ∘ f)) := by
    rw [Option.map_map]
    exact congrArg (Option.map · c.criterion) (funext Node.mapColumns_mapColumns)
  show { ofMembers ((c.rebuild f).elements.map fun e => (e.expression.mapColumns g).member)
      ((c.rebuild f).elements.map (·.operator)) c.options
      ((c.criterion.map (·.mapColumns f)).map (·.mapColumns g)) with
    listeners := c.listeners } = _
  rw [hmembers, hoperators, hcriterion]
  rfl

theorem rebuild_congr {f g : ColumnRef → ColumnRef} {c : ExcludeConstraint}
    (helements : ∀ e ∈ c.elements, ∀ n ∈ e.expression.node?, n.mapColumns f = n.mapColumns g)
    (hcriterion : ∀ n ∈ c.criterion, n.mapColumns f = n.mapColumns g) :
    c.rebuild f = c.rebuild g := by
  have hmembers : (c.elements.map fun e => (e.expression.mapColumns f).member) =
      c.elements.map fun e => (e.expression.mapColumns g).member :=
    List.map_congr_left fun e he =>
      congrArg Entry.member (Entry.mapColumns_congr (helements e he))
  rw [rebuild, rebuild, hmembers, Option.map_congr hcriterion]

end ExcludeConstraint

namespace Constraint

/-- The constraint with `f` done to its references to columns, for no table yet. -/
def rebuild (f : ColumnRef → ColumnRef) : Constraint → Constraint
  | check c => check { c with condition := c.condition.mapColumns f, parent := none }
  | exclude c => exclude (c.rebuild f)

/-- The constraint as one of the table. -/
def ofTable (home : Relation) : Constraint → Constraint
  | check c => check { c with parent := some home }
  | exclude c => exclude { c with parent := some home }

/-- The references to columns in the expressions of the constraint. -/
def references (k : Constraint) : List ColumnRef := k.children.flatMap Node.columnRefs

variable {f g : ColumnRef → ColumnRef}

@[simp] theorem parent_ofTable (home : Relation) (k : Constraint) :
    (k.ofTable home).parent = some home := by
  cases k <;> rfl

theorem children_ofTable (home : Relation) (k : Constraint) :
    (k.ofTable home).children = k.children := by
  cases k <;> rfl

theorem references_ofTable (home : Relation) (k : Constraint) :
    (k.ofTable home).references = k.references := by
  rw [references, references, children_ofTable]

theorem children_rebuild (f : ColumnRef → ColumnRef) (k : Constraint) :
    (k.rebuild f).children = k.children.map (Node.mapColumns f) := by
  cases k with
  | check c => rfl
  | exclude c =>
      show (c.rebuild f).elements.filterMap _ ++ (c.criterion.map _).toList =
        (c.elements.filterMap _ ++ c.criterion.toList).map _
      rw [ExcludeConstraint.elements_rebuild, List.filterMap_map, List.map_append,
        List.map_filterMap, Option.toList_map]
      refine congrArg (· ++ _) (List.filterMap_congr fun e _ => ?_)
      show (e.expression.mapColumns f).member.expression.node? = _
      rw [Entry.expression_member, Entry.node?_mapColumns]

theorem references_rebuild (f : ColumnRef → ColumnRef) (k : Constraint) :
    (k.rebuild f).references = k.references.map f := by
  rw [references, references, children_rebuild, List.flatMap_map, List.map_flatMap]
  exact List.flatMap_congr fun n _ => n.columnRefs_mapColumns f

/-- **A constraint can be rebuilt in two steps.** -/
theorem rebuild_rebuild (f g : ColumnRef → ColumnRef) (home : Relation) (k : Constraint) :
    ((k.rebuild f).ofTable home).rebuild g = k.rebuild (g ∘ f) := by
  cases k with
  | check c =>
      show check { c with condition := (c.condition.mapColumns f).mapColumns g, parent := none } = _
      rw [Node.mapColumns_mapColumns]
      rfl
  | exclude c => exact congrArg exclude (c.rebuild_rebuild f g home)

/-- What a constraint is rebuilt to is decided by what is done to its references. -/
theorem rebuild_congr {k : Constraint} (h : ∀ r ∈ k.references, f r = g r) :
    k.rebuild f = k.rebuild g := by
  have hchild : ∀ n ∈ k.children, n.mapColumns f = n.mapColumns g := fun n hn =>
    n.mapColumns_congr fun r hr => h r (List.mem_flatMap.mpr ⟨n, hn, hr⟩)
  cases k with
  | check c =>
      show check { c with condition := c.condition.mapColumns f, parent := none } = _
      rw [hchild c.condition (List.mem_singleton_self c.condition)]
      rfl
  | exclude c =>
      refine congrArg exclude (ExcludeConstraint.rebuild_congr (fun e he n hn => ?_) fun n hn => ?_)
      · exact hchild n (List.mem_append_left _ (List.mem_filterMap.mpr ⟨e, he, hn⟩))
      · exact hchild n (List.mem_append_right _ (Option.mem_toList.mpr hn))

end Constraint

/-! ## 2. Copying constraints -/

/-- The argument from which a copy of an entry is read. -/
theorem ExcludeConstraint.resultUnless_copyEntry (source : Relation) (t : Table) (e : Entry) :
    ResultUnless (fun error => ∃ n ∈ e.node?, t.Lacks (some source) n.columnRefs error)
      (e.mapColumns (t.rebound (some source))).argument (copyEntry (some source) t e) := by
  cases e with
  | pending name => exact (ResultUnless.ok _).congr fun error => by simp [Entry.node?]
  | resolved n =>
      refine ((resultUnless_rebind source t n).map Argument.element).congr fun error => ?_
      simp [Entry.node?]

/-- An entry that an exclusion can be built from is read as its member. -/
theorem Entry.readMember_argument {e : Entry}
    (h : ∀ n ∈ e.node?, Role.ddl.accepts n = true) :
    readMember .ddl e.argument = .ok e.member := by
  cases e with
  | pending name => rfl
  | resolved n =>
      have hcoerce : coerce .ddl (.element n) = .ok n :=
        coerce_element_eq_ok_iff.mpr ⟨h n rfl, rfl⟩
      show Member.ofNode <$> coerce .ddl (.element n) = _
      rw [hcoerce]
      rfl

namespace ExcludeConstraint

/-- What can be built again can be built with something done to its references. -/
theorem build_rebuild (f : ColumnRef → ColumnRef) {c : ExcludeConstraint} (h : c.Buildable) :
    (build (c.elements.map fun e => ((e.expression.mapColumns f).argument, e.operator))
      { c.options with criterion := c.criterion.map fun n => .element (n.mapColumns f) }) =
        .ok (ofMembers (c.elements.map fun e => (e.expression.mapColumns f).member)
          (c.elements.map (·.operator)) c.options (c.criterion.map (·.mapColumns f))) := by
  have hmembers : readMembers .ddl
      ((c.elements.map fun e => ((e.expression.mapColumns f).argument, e.operator)).map (·.1)) =
        .ok (c.elements.map fun e => (e.expression.mapColumns f).member) := by
    rw [List.map_map, readMembers, List.mapM_map]
    refine mapM_eq_ok fun e he => Entry.readMember_argument fun n hn => ?_
    rw [Entry.node?_mapColumns] at hn
    obtain ⟨m, hm, rfl⟩ := Option.map_eq_some_iff.mp hn
    rw [Node.accepts_mapColumns]
    exact h.elements e he m hm
  have hcriterion : (c.criterion.map fun n => Argument.element (n.mapColumns f)).mapM
      (coerce .option) = .ok (c.criterion.map (·.mapColumns f)) := by
    cases hgiven : c.criterion with
    | none => rfl
    | some n =>
        have haccepts : Role.option.accepts (n.mapColumns f) = true := by
          rw [Node.accepts_mapColumns]
          exact h.criterion n hgiven
        have hcoerce : coerce .option (.element (n.mapColumns f)) = .ok (n.mapColumns f) :=
          coerce_element_eq_ok_iff.mpr ⟨haccepts, rfl⟩
        rw [Option.map_some, Option.mapM_some, hcoerce]
        rfl
  refine build_eq_ok_iff.mpr ⟨?_, h.method, _, _, hmembers, hcriterion, ?_⟩
  · exact fun hnil => h.nonempty (List.map_eq_nil_iff.mp hnil)
  · rw [List.map_map]
    rfl

theorem resultUnless_copyTo {c : ExcludeConstraint} (h : c.Buildable) (t : Table)
    {source : Relation} (hparent : c.parent = some source) :
    ResultUnless (t.Lacks (some source) (Constraint.exclude c).references)
      (c.rebuild (t.rebound (some source))) (c.copyTo t) := by
  have hpairs := ResultUnless.mapM fun e (_ : e ∈ c.elements) =>
    (resultUnless_copyEntry source t e.expression).bindPure fun a => (a, e.operator)
  have hcriterion := ResultUnless.optionMapM fun n (_ : n ∈ c.criterion) =>
    (resultUnless_rebind source t n).map Argument.element
  unfold copyTo
  rw [hparent]
  refine ResultUnless.congr (.bind hpairs (.bindOk hcriterion ?_)) fun e => ?_
  · rw [build_rebuild _ h]
    rfl
  · simp only [Constraint.references, Table.lacks_flatMap, Constraint.children, List.mem_append,
      List.mem_filterMap, Option.mem_toList, or_and_right, exists_or]
    refine or_congr_left ⟨?_, ?_⟩
    · rintro ⟨e, he, n, hn, hlacks⟩
      exact ⟨n, ⟨e, he, hn⟩, hlacks⟩
    · rintro ⟨n, ⟨e, he, hn⟩, hlacks⟩
      exact ⟨e, he, n, hn, hlacks⟩

end ExcludeConstraint

namespace Constraint

variable {k : Constraint} {t : Table}

/-- **A constraint can be copied** unless the table lacks a column of the old one that the
constraint refers to. -/
theorem resultUnless_copyTo (h : k.Buildable) (t : Table) {source : Relation}
    (hparent : k.parent = some source) :
    ResultUnless (t.Lacks (some source) k.references) (k.rebuild (t.rebound (some source)))
      (k.copyTo t) := by
  cases k with
  | check c =>
      have hparent : c.parent = some source := hparent
      show ResultUnless (t.Lacks (some source) ([c.condition].flatMap Node.columnRefs)) _
        (check <$> c.copyTo t)
      rw [List.flatMap_singleton, CheckConstraint.copyTo, hparent]
      refine ResultUnless.map check (.bindOk (resultUnless_rebind source t c.condition) ?_)
      rfl
  | exclude c => exact (ExcludeConstraint.resultUnless_copyTo h t hparent).map exclude

/-- What is not pending is settled as it is. -/
theorem settle_of_resolved (h : k.Resolved) (t : Table) :
    k.settle t = .ok (k.ofTable t.relation) := by
  cases k with
  | check c => rfl
  | exclude c =>
      have hsettle : ∀ e : Entry, e.isPending = false → e.settle t = .ok e := by
        intro e he
        cases e with
        | pending name => cases he
        | resolved n => rfl
      have helements : (c.elements.mapM fun e => do
          return { e with expression := ← e.expression.settle t }) = .ok (c.elements.map id) :=
        mapM_eq_ok fun e he => by rw [hsettle _ (h.1 e he)]; rfl
      have hcolumns : c.columns.mapM (·.settle t) = .ok (c.columns.map id) :=
        mapM_eq_ok fun e he => hsettle e (h.2 e he)
      rw [List.map_id] at helements hcolumns
      show exclude <$> c.settle t = _
      rw [ExcludeConstraint.settle, helements]
      show exclude <$> (c.columns.mapM (·.settle t) >>= _) = _
      rw [hcolumns]
      rfl

/-- A constraint without pending names is rebuilt without pending names. -/
theorem resolved_rebuild (h : k.Resolved) (f : ColumnRef → ColumnRef) : (k.rebuild f).Resolved := by
  cases k with
  | check c => trivial
  | exclude c =>
      have hmember : ∀ e ∈ c.elements, ∃ n, (e.expression.mapColumns f) = .resolved n := by
        intro e he
        have hpending := h.1 e he
        cases hexpression : e.expression with
        | pending name =>
            rw [hexpression] at hpending
            cases hpending
        | resolved n => exact ⟨_, rfl⟩
      refine ⟨fun e' he' => ?_, fun e' he' => ?_⟩
      · rw [ExcludeConstraint.elements_rebuild] at he'
        obtain ⟨e, he, rfl⟩ := List.mem_map.mp he'
        obtain ⟨n, hn⟩ := hmember e he
        rw [hn]
        rfl
      · obtain ⟨m, hm, hentry⟩ := List.mem_filterMap.mp he'
        obtain ⟨e, he, rfl⟩ := List.mem_map.mp hm
        obtain ⟨n, hn⟩ := hmember e he
        rw [hn] at hentry
        obtain ⟨r, -, rfl⟩ := Option.map_eq_some_iff.mp hentry
        rfl

end Constraint

/-! ## 3. Copying tables -/

namespace Table

variable {t u : Table} {k : Constraint}

/-- The table's own constraint for one of another table: its references are bound to the columns of
the table, and it belongs to the table. -/
def adopt (t : Table) (k : Constraint) : Constraint :=
  (k.rebuild (t.rebound k.parent)).ofTable t.relation

/-- A constraint that has no table and no pending names can be attached. -/
theorem append_of_resolved (hparent : k.parent = none) (h : k.Resolved) (t : Table) :
    ∃ notices, t.append k = .ok (t.push (k.ofTable t.relation), notices) := by
  refine ⟨k.listeners.before.map (⟨.before, ·, k, t⟩) ++
    k.listeners.after.map (⟨.after, ·, k.ofTable t.relation, t⟩), ?_⟩
  rw [append, Constraint.attach, hparent, Constraint.settle_of_resolved h]
  rfl

theorem copyConstraints_cons (k : Constraint) (ks : List Constraint) (t : Table) :
    (copyConstraints (k :: ks) t).2 =
      (Prod.fst <$> (k.copyTo t >>= t.append)) >>= fun u => (copyConstraints ks u).2 := by
  rw [copyConstraints]
  cases k.copyTo t >>= t.append with
  | error e => rfl
  | ok result => rfl

/-- A constraint is copied and attached unless the table lacks a column that it refers to. -/
theorem resultUnless_append (h : k.Sound) (t : Table) :
    ResultUnless (t.Lacks k.parent k.references) (t.push (t.adopt k))
      (Prod.fst <$> (k.copyTo t >>= t.append)) := by
  obtain ⟨home, hparent⟩ := h.attached
  have hfresh : (k.rebuild (t.rebound (some home))).parent = none := by
    cases k <;> rfl
  obtain ⟨notices, happend⟩ :=
    append_of_resolved hfresh (Constraint.resolved_rebuild h.resolved _) t
  rw [adopt, hparent]
  exact ((Constraint.resultUnless_copyTo h.buildable t hparent).bindOk happend).map Prod.fst

/-- **Constraints are copied one by one** unless the table lacks a column that one of them refers
to. -/
theorem resultUnless_copyConstraints : ∀ (ks : List Constraint) (t : Table),
    (∀ k ∈ ks, k.Sound) →
      ResultUnless (fun e => ∃ k ∈ ks, t.Lacks k.parent k.references e)
        { t with constraints := t.constraints ++ ks.map t.adopt } (copyConstraints ks t).2
  | [], t, _ => by
      rw [List.map_nil, List.append_nil]
      exact (ResultUnless.ok t).congr fun e => by simp
  | k :: ks, t, h => by
      have hlater := resultUnless_copyConstraints ks (t.push (t.adopt k))
        fun k' hk' => h k' (List.mem_cons_of_mem k hk')
      have hresult : ({ t with constraints := t.constraints ++ (k :: ks).map t.adopt } : Table) =
          { t.push (t.adopt k) with
            constraints := (t.push (t.adopt k)).constraints ++
              ks.map (t.push (t.adopt k)).adopt } := by
        show _ = ({ t with constraints := t.constraints ++ [t.adopt k] ++ ks.map t.adopt } : Table)
        rw [List.append_assoc, List.singleton_append, List.map_cons]
      rw [copyConstraints_cons, hresult]
      refine ((resultUnless_append (h k List.mem_cons_self) t).bind hlater).congr fun e => ?_
      show (_ ∨ ∃ k' ∈ ks, t.Lacks k'.parent k'.references e) ↔ _
      rw [List.exists_mem_cons_iff]

/-- The table has all columns that its constraints refer to as columns of their parent, be it in an
element or in a criterion. -/
def Complete (t : Table) : Prop :=
  ∀ k ∈ t.constraints, ∀ r ∈ k.references, r.table = k.parent → (t.column? r.name).isSome = true

/-- The table under another name, with its constraints rebuilt for it. -/
def copied (t : Table) (name : String) : Table :=
  { t.copyColumns name with constraints := t.constraints.map (t.copyColumns name).adopt }

theorem column?_copyColumns (t : Table) (name n : String) :
    (t.copyColumns name).column? n =
      (t.column? n).map (·.ofTable (t.copyColumns name).relation) :=
  List.find?_map ..

theorem column?_copyColumns_eq_none {name n : String} :
    (t.copyColumns name).column? n = none ↔ t.column? n = none := by
  rw [column?_copyColumns, Option.map_eq_none_iff]

/-- **A table that can be made is copied** unless it lacks a column that one of its constraints
refers to, and what changes in its constraints is their references to the old table. -/
theorem resultUnless_copyAs (h : t.Reachable) (name : String) :
    ResultUnless (fun e => ∃ k ∈ t.constraints, (t.copyColumns name).Lacks k.parent k.references e)
      (t.copied name) (t.copyAs name).2 :=
  resultUnless_copyConstraints t.constraints (t.copyColumns name) h.sound

theorem copyAs_eq_ok_iff (h : t.Reachable) {name : String} :
    (t.copyAs name).2 = .ok u ↔ u = t.copied name ∧ t.Complete := by
  rw [(resultUnless_copyAs h name).eq_ok_iff]
  refine and_congr_right fun _ => ⟨fun hnone k hk r hr htable => ?_, ?_⟩
  · refine Option.isSome_iff_ne_none.mpr fun hmissing => hnone (.columnNotFound name r.name) ?_
    exact ⟨k, hk, r, hr, htable, column?_copyColumns_eq_none.mpr hmissing, rfl⟩
  · rintro hcomplete e ⟨k, hk, r, hr, htable, hmissing, -⟩
    have hsome := hcomplete k hk r hr htable
    rw [column?_copyColumns_eq_none.mp hmissing] at hsome
    cases hsome

/-! ## 4. Copies of copies -/

theorem name_of_column? {name : String} {c : Column} (h : t.column? name = some c) :
    c.name = name := by
  have hfind : t.columns.find? (fun c => c.name == name) = some c := h
  have hname := List.find?_some hfind
  exact eq_of_beq hname

section Twice

variable {first second : String} {source : Option Relation} {r : ColumnRef}

theorem rebound_copyColumns_of_column? {name : String} {col : Column} (hsource : r.table = source)
    (hcolumn : t.column? r.name = some col) :
    (t.copyColumns name).rebound source r = (col.ofTable ⟨t.schema, name⟩).ref := by
  refine rebound_of_column? hsource ?_
  rw [column?_copyColumns, hcolumn]
  rfl

/-- A reference that is bound to a copy names a column of the table, unless it referred to the copy
beforehand. -/
theorem exists_column?_of_rebound (h : r.table ≠ some ⟨t.schema, first⟩)
    (hbound : ((t.copyColumns first).rebound source r).table = some ⟨t.schema, first⟩) :
    r.table = source ∧ ∃ col, t.column? r.name = some col := by
  have hsource : r.table = source := by
    by_contra hne
    exact h (rebound_of_ne hne ▸ hbound)
  refine ⟨hsource, Option.ne_none_iff_exists'.mp fun hmissing => h ?_⟩
  rw [← hbound, rebound_of_column?_eq_none (column?_copyColumns_eq_none.mpr hmissing)]

/-- What a reference is bound to by way of a copy, if it does not refer to the copy beforehand. -/
theorem rebound_rebound (h : r.table ≠ some ⟨t.schema, first⟩) :
    (t.copyColumns second).rebound (some ⟨t.schema, first⟩)
      ((t.copyColumns first).rebound source r) = (t.copyColumns second).rebound source r := by
  by_cases hbound : ((t.copyColumns first).rebound source r).table = some ⟨t.schema, first⟩
  · obtain ⟨hsource, col, hcolumn⟩ := exists_column?_of_rebound h hbound
    rw [rebound_copyColumns_of_column? hsource hcolumn,
      rebound_copyColumns_of_column? hsource hcolumn]
    refine rebound_copyColumns_of_column? rfl ?_
    show t.column? col.name = some col
    rw [name_of_column? hcolumn, hcolumn]
  · rw [rebound_of_ne hbound]
    -- what is not bound to the copy is as it was, and is not bound to another one either
    by_cases hsource : r.table = source
    · have hmissing : t.column? r.name = none := by
        by_contra hne
        obtain ⟨col, hcolumn⟩ := Option.ne_none_iff_exists'.mp hne
        exact hbound (by rw [rebound_copyColumns_of_column? hsource hcolumn]; rfl)
      rw [rebound_of_column?_eq_none (column?_copyColumns_eq_none.mpr hmissing),
        rebound_of_column?_eq_none (column?_copyColumns_eq_none.mpr hmissing)]
    · rw [rebound_of_ne hsource, rebound_of_ne hsource]

/-- A constraint that is adopted by a copy and then by a second one is adopted by the second one. -/
theorem adopt_adopt {k : Constraint} (h : ∀ r ∈ k.references, r.table ≠ some ⟨t.schema, first⟩) :
    (t.copyColumns second).adopt ((t.copyColumns first).adopt k) =
      (t.copyColumns second).adopt k := by
  unfold adopt
  rw [Constraint.parent_ofTable, Constraint.rebuild_rebuild]
  exact congrArg _ (Constraint.rebuild_congr fun r hr => rebound_rebound (h r hr))

variable (hfresh : ∀ k ∈ t.constraints, ∀ r ∈ k.references, r.table ≠ some ⟨t.schema, first⟩)
include hfresh

theorem copied_copied : (t.copied first).copied second = t.copied second := by
  have hcolumns : (t.copied first).copyColumns second = t.copyColumns second := by
    show ({ t.copyColumns second with columns := (t.columns.map _).map _ } : Table) = _
    rw [List.map_map]
    rfl
  have hconstraints :
      (t.constraints.map (t.copyColumns first).adopt).map (t.copyColumns second).adopt =
        t.constraints.map (t.copyColumns second).adopt := by
    rw [List.map_map]
    exact List.map_congr_left fun k hk => adopt_adopt (hfresh k hk)
  rw [copied, hcolumns]
  exact congrArg (fun ks => { t.copyColumns second with constraints := ks }) hconstraints

/-- What refers to a copy has come from a column of the table. -/
theorem complete_copied : (t.copied first).Complete := by
  intro k' hk' r' hr' hparent
  obtain ⟨k, hk, rfl⟩ := List.mem_map.mp hk'
  have hr' : r' ∈ (k.rebuild ((t.copyColumns first).rebound k.parent)).references := by
    rwa [adopt, Constraint.references_ofTable] at hr'
  rw [Constraint.references_rebuild] at hr'
  obtain ⟨r, hr, rfl⟩ := List.mem_map.mp hr'
  rw [adopt, Constraint.parent_ofTable] at hparent
  obtain ⟨hsource, col, hcolumn⟩ := exists_column?_of_rebound (hfresh k hk r hr) hparent
  have hfound : t.column? col.name = some col := by rw [name_of_column? hcolumn, hcolumn]
  show ((t.copyColumns first).column? _).isSome = true
  rw [rebound_copyColumns_of_column? hsource hcolumn, column?_copyColumns]
  show ((t.column? col.name).map _).isSome = true
  rw [hfound]
  rfl

end Twice

/-- **A copy of a copy is a copy of the original**, if no constraint refers to the first copy
beforehand. -/
theorem copyAs_copyAs (h : t.Reachable) (first second : String)
    (hfresh : ∀ k ∈ t.constraints, ∀ r ∈ k.references, r.table ≠ some ⟨t.schema, first⟩)
    (w : Table) :
    ((t.copyAs first).2 >>= fun u => (u.copyAs second).2) = .ok w ↔
      (t.copyAs second).2 = .ok w := by
  constructor
  · intro hw
    obtain ⟨u, hu, hw⟩ := exists_of_bind_eq_ok hw
    obtain ⟨rfl, -⟩ := (copyAs_eq_ok_iff (h.copyAs hu)).mp hw
    obtain ⟨rfl, hcomplete⟩ := (copyAs_eq_ok_iff h).mp hu
    exact (copyAs_eq_ok_iff h).mpr ⟨copied_copied hfresh, hcomplete⟩
  · intro hw
    obtain ⟨rfl, hcomplete⟩ := (copyAs_eq_ok_iff h).mp hw
    have hu : (t.copyAs first).2 = .ok (t.copied first) := (copyAs_eq_ok_iff h).mpr ⟨rfl, hcomplete⟩
    rw [hu]
    exact (copyAs_eq_ok_iff (h.copyAs hu)).mpr
      ⟨(copied_copied hfresh).symm, complete_copied hfresh⟩

/-- A column of the bookings of a hotel. -/
def bookingColumn (name : String) : Node :=
  ⟨.column ⟨name, some ⟨some "hotel", "bookings"⟩, .null, false⟩⟩

/-- The room of a booking has a number. -/
def numbered : CheckConstraint :=
  .ofCondition ⟨.binary (bookingColumn "room") .gt (Node.literal (.int 0)) .boolean⟩

/-- No two bookings of a room overlap. The room is given by its name, the time as an expression. -/
def noOverlap : ExcludeConstraint :=
  .ofMembers [.ofName "room", .ofNode (bookingColumn "during")] ["=", "&&"]
    { ExcludeOptions.default with name := some "no_overlap" } (some (bookingColumn "confirmed"))

/-- The bookings of a hotel. -/
def bookings : List Change :=
  [.withSchema "hotel", .addColumn (.ofType "room" .integer),
    .addColumn (.ofType "during" (.custom "tsrange")), .addColumn (.ofType "confirmed" .boolean),
    .append (.check numbered), .append (.exclude noOverlap)]

theorem built_noOverlap : (Constraint.exclude noOverlap).Built := by
  have hbuild : ExcludeConstraint.build
      [(.value (.text "room"), "="), (.element (bookingColumn "during"), "&&")]
      { ExcludeOptions.default with
        name := some "no_overlap", criterion := some (.element (bookingColumn "confirmed")) } =
        .ok noOverlap := rfl
  exact .exclusion hbuild

theorem reachable_bookings : (Ledger.run "bookings" bookings).table.Reachable := by
  refine reachable_run "bookings" bookings fun c hc => ?_
  simp only [bookings, List.mem_cons, Change.append.injEq, List.not_mem_nil, reduceCtorEq,
    false_or, or_false] at hc
  rcases hc with rfl | rfl
  · exact .condition _
  · exact built_noOverlap

/-- The bookings are copied by way of a draft, with what is given by its name and what is not. -/
theorem copyAs_copyAs_bookings :
    let t := (Ledger.run "bookings" bookings).table
    t.Reachable ∧ (∀ k ∈ t.constraints, ∀ r ∈ k.references, r.table ≠ some ⟨t.schema, "drafts"⟩) ∧
      t.constraints.map Constraint.isCheck = [true, false] ∧
      (t.copyAs "archive").2 = .ok (t.copied "archive") ∧
      ((t.copyAs "drafts").2 >>= fun u => (u.copyAs "archive").2) = .ok (t.copied "archive") := by
  intro t
  have hreachable : t.Reachable := reachable_bookings
  have hfresh : ∀ k ∈ t.constraints, ∀ r ∈ k.references, r.table ≠ some ⟨t.schema, "drafts"⟩ := by
    decide
  have hcomplete : t.Complete := by unfold Complete; decide
  have hdirect : (t.copyAs "archive").2 = .ok (t.copied "archive") :=
    (copyAs_eq_ok_iff hreachable).mpr ⟨rfl, hcomplete⟩
  exact ⟨hreachable, hfresh, rfl, hdirect,
    (copyAs_copyAs hreachable "drafts" "archive" hfresh _).mpr hdirect⟩

end Table

end SqlClause
