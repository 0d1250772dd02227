import SqlClause.Proofs.BoundValues
import SqlClause.Proofs.Definitions
import SqlClause.Proofs.TableCopy

/-!
# Definitions of copies

In a definition a column stands without its table, so binding a reference to another table's column
of the same name changes nothing in the text. A copy of a table is therefore defined like the table
itself, but for its name.

* `Node.template_mapColumns`: which changes of references cannot be seen in a text;
* `Table.sameIn_adopt`: a constraint and its copy are rendered alike;
* **`Table.createTable_copyAs`**: when a table can be copied, and how the copy is defined.
-/

namespace SqlClause

open RenderM

/-! ## 1. Changes of references that cannot be seen -/

/-- The layout of a clause that is no statement depends on its reference by the text of it alone. -/
theorem Style.layoutFor_mapColumn {α : Type} {σ : Style} {f : ColumnRef → ColumnRef} {c : Clause α}
    (hcolumn : ∀ r ∈ c.columnRef?, σ.column (f r) = σ.column r) (hselect : ∀ s, c ≠ .select s)
    (sources sources' : List Relation) :
    σ.layoutFor sources' (c.mapColumn f) = σ.layoutFor sources c := by
  cases c with
  | select s => exact absurd rfl (hselect s)
  | column r =>
      have hrule : σ.ruleFor (Clause.column (f r) : Clause α) =
          σ.ruleFor (Clause.column r : Clause α) := rfl
      rw [Clause.mapColumn, layoutFor, layoutFor, hrule]
      cases σ.ruleFor (Clause.column r : Clause α) with
      | error e => rfl
      | ok rule => exact congrArg (Except.ok ∘ Layout.fixed) (hcolumn r rfl)
  | _ => rfl

namespace Node

variable {σ : Style} {f : ColumnRef → ColumnRef}

/-- **A change of references cannot be seen in a tree without statements** if it cannot be seen in
the references. -/
theorem template_mapColumns : ∀ n : Node, n.SelectFree →
    (∀ r ∈ n.columnRefs, σ.column (f r) = σ.column r) →
    (n.mapColumns f).template σ = n.template σ := by
  apply induction
  intro c ih hfree hcolumns
  obtain ⟨hselect, hfree⟩ := selectFree_mk.mp hfree
  obtain ⟨hown, hparts⟩ := forall_columnRefs_mk.mp hcolumns
  rw [mapColumns_mk, template_mk, template_mk, Style.layoutFor_map,
    Style.layoutFor_mapColumn hown hselect (mk c).sources]
  cases hlayout : σ.layoutFor (mk c).sources c with
  | error e => rfl
  | ok layout =>
      show Layout.template ((layout.map (mapColumns f)).map (template σ)) = _
      rw [Layout.map_map]
      refine congrArg Layout.template (Layout.map_congr fun n hn => ?_)
      have hn := Style.mem_parts_of_layoutFor hlayout hn
      exact ih n hn (hfree n hn) (hparts n hn)

end Node

/-- In a definition a column is written without its table. -/
theorem Style.column_of_inDdl {σ : Style} (h : σ.inDdl = true) (r : ColumnRef) :
    σ.column r = if r.literal then r.name else σ.quote r.name := by
  unfold column
  rw [h]
  cases r.table <;> rfl

/-! ## 2. Constraints that are rebuilt -/

section Rebuilt

variable {s : Settings} {f : ColumnRef → ColumnRef}

/-- The reference is to a column of the same name, and is SQL text or not as before. -/
def KeepsName (f : ColumnRef → ColumnRef) (r : ColumnRef) : Prop :=
  (f r).name = r.name ∧ (f r).literal = r.literal

namespace Node

variable {n : Node}

theorem sameIn_mapColumns (hfree : n.SelectFree) (hkeeps : ∀ r ∈ n.columnRefs, KeepsName f r) :
    SameIn InDefinition s n.render (n.mapColumns f).render := by
  refine sameIn_render (n.template_mapColumns hfree fun r hr => ?_).symm
  obtain ⟨hname, hliteral⟩ := hkeeps r hr
  rw [Style.column_of_inDdl rfl, Style.column_of_inDdl rfl, hname, hliteral]

theorem enclosed_mapColumns (f : ColumnRef → ColumnRef) (n : Node) (text : String) :
    enclosed (n.mapColumns f) text = enclosed n text := by
  obtain ⟨c⟩ := n
  rw [mapColumns_mk]
  cases c <;> rfl

theorem operatorClass?_mapColumns (classes : NameMap String)
    (hkeeps : ∀ r ∈ n.columnRefs, KeepsName f r) :
    operatorClass? classes (n.mapColumns f) = operatorClass? classes n := by
  obtain ⟨c⟩ := n
  rw [mapColumns_mk]
  cases c with
  | column r =>
      obtain ⟨hname, hliteral⟩ := (forall_columnRefs_mk.mp hkeeps).1 r rfl
      show Option.bind (if (f r).literal then none else some (f r)) (fun c => classes.get? c.name) =
        Option.bind (if r.literal then none else some r) fun c => classes.get? c.name
      rw [hliteral]
      cases r.literal with
      | true => rfl
      | false => exact congrArg classes.get? hname
  | _ => rfl

end Node

/-- **A constraint is rendered like the one that it was rebuilt from**, if the columns have kept
their names. -/
theorem Constraint.sameIn_rebuild {k : Constraint} (hresolved : k.Resolved)
    (hfree : ∀ n ∈ k.children, n.SelectFree) (hkeeps : ∀ r ∈ k.references, KeepsName f r)
    (home : Relation) : SameIn Anywhere s k.render ((k.rebuild f).ofTable home).render := by
  have hkeeps : ∀ n ∈ k.children, ∀ r ∈ n.columnRefs, KeepsName f r :=
    fun n hn r hr => hkeeps r (List.mem_flatMap.mpr ⟨n, hn, hr⟩)
  have hchild : ∀ n ∈ k.children, SameIn InDefinition s n.render (n.mapColumns f).render :=
    fun n hn => Node.sameIn_mapColumns (hfree n hn) (hkeeps n hn)
  cases k with
  | check c =>
      refine sameIn_render rfl (sameIn_apply_check (sameIn_check rfl ?_))
      exact hchild c.condition (List.mem_singleton_self c.condition)
  | exclude c =>
      refine sameIn_render rfl (sameIn_apply_exclude (sameIn_exclude rfl rfl rfl rfl ?_ ?_))
      · show List.Forall₂ _ c.elements (c.rebuild f).elements
        rw [ExcludeConstraint.elements_rebuild, List.forall₂_map_right_iff, List.forall₂_same]
        intro e he
        cases hexpression : e.expression with
        | pending name =>
            have hpending := hresolved.1 e he
            rw [hexpression] at hpending
            cases hpending
        | resolved n =>
            have hn : n ∈ (exclude c).children :=
              List.mem_append_left _ (List.mem_filterMap.mpr ⟨e, he, by rw [hexpression]; rfl⟩)
            exact sameIn_excludeElement hexpression rfl rfl (hchild n hn)
              (fun text => (n.enclosed_mapColumns f text).symm)
              (Node.operatorClass?_mapColumns c.classes (hkeeps n hn)).symm
      · refine sameIn_excludeCriterion ?_
        show Option.Rel _ c.criterion (c.criterion.map _)
        cases hcriterion : c.criterion with
        | none => exact .none
        | some n =>
            have hn : n ∈ (exclude c).children :=
              List.mem_append_right _ (Option.mem_toList.mpr hcriterion)
            exact .some (hchild n hn)

end Rebuilt

/-! ## 3. Tables that are copied -/

namespace Table

variable {t u : Table} {s : Settings}

/-- No expression of the table's constraints has a statement in it, and no SQL text in them stands
for a column of a table. -/
structure Plain (t : Table) : Prop where
  selectFree : ∀ k ∈ t.constraints, ∀ n ∈ k.children, n.SelectFree
  literal : ∀ k ∈ t.constraints, ∀ r ∈ k.references, r.literal = true → r.table = none

theorem keepsName_rebound (t : Table) {home : Relation} {r : ColumnRef}
    (h : r.literal = true → r.table = none) : KeepsName (t.rebound (some home)) r := by
  by_cases hsource : r.table = some home
  · cases hcolumn : t.column? r.name with
    | none =>
        rw [KeepsName, rebound_of_column?_eq_none hcolumn]
        exact ⟨rfl, rfl⟩
    | some c =>
        have hnamed : r.literal = false := Bool.eq_false_iff.mpr fun hliteral => by
          rw [h hliteral] at hsource
          cases hsource
        rw [KeepsName, rebound_of_column? hsource hcolumn, hnamed]
        exact ⟨name_of_column? hcolumn, rfl⟩
  · rw [KeepsName, rebound_of_ne hsource]
    exact ⟨rfl, rfl⟩

/-- The copy of a table is defined like the table after the names of the two. -/
theorem sameIn_renderBody_copied (h : t.Reachable) (hplain : t.Plain) (name : String) :
    SameIn Anywhere s t.renderBody (t.copied name).renderBody := by
  refine sameIn_renderBody ?_ ?_
  · show List.Forall₂ _ t.columns (t.columns.map _)
    rw [List.forall₂_map_right_iff, List.forall₂_same]
    exact fun c _ => traceless_columnDefinition c
  · show List.Forall₂ _ t.constraints (t.constraints.map _)
    rw [List.forall₂_map_right_iff, List.forall₂_same]
    intro k hk
    have hsound := h.sound k hk
    obtain ⟨home, hparent⟩ := hsound.attached
    rw [adopt, hparent]
    exact Constraint.sameIn_rebuild hsound.resolved (hplain.selectFree k hk)
      (fun r hr => keepsName_rebound _ (hplain.literal k hk r hr)) _

/-- A table is defined by its name and by what comes after it. -/
theorem createTable_of_renderBody {outcome : Except Error String} {c : Compiler}
    (hbody : ∀ p : Progress, t.renderBody c.settings p = (outcome, p)) :
    (c.createTable t).1 =
      outcome.map ("CREATE TABLE " ++ (c.settings.style true).relation t.relation ++ ·) := by
  have hrelation : RenderM.relation t.relation c.settings c.progress =
      (.ok ((c.settings.style true).relation t.relation), c.progress) := by
    rw [relation_at t.relation c.settings true]
    rfl
  show (t.render c.settings c.progress).1 = _
  rw [render_eq, bind_apply, hrelation]
  show ((t.renderBody >>= _) c.settings c.progress).1 = _
  rw [bind_apply, hbody]
  cases outcome with
  | error e => rfl
  | ok text => rfl

/-- **A copy is defined like the original.** A table that can be made can be copied exactly if it
has all columns that its constraints refer to as columns of their parent; if it lacks one, the
failure says so under the name of the copy. The copy is a table of the same schema, and the
definitions of the two differ in their names alone: whatever the compiler, both fail in the same way
or have the same text after the name. -/
theorem createTable_copyAs (h : t.Reachable) (hplain : t.Plain) (name : String) :
    ((∃ u, (t.copyAs name).2 = .ok u) ↔ t.Complete) ∧
    (∀ e, (t.copyAs name).2 = .error e → ∃ k ∈ t.constraints, ∃ r ∈ k.references,
      r.table = k.parent ∧ t.column? r.name = none ∧ e = .columnNotFound name r.name) ∧
    ∀ u, (t.copyAs name).2 = .ok u → u.relation = ⟨t.schema, name⟩ ∧
      ∀ c : Compiler, ∃ body : Except Error String,
        (c.createTable t).1 =
          body.map ("CREATE TABLE " ++ (c.settings.style true).relation t.relation ++ ·) ∧
        (c.createTable u).1 =
          body.map ("CREATE TABLE " ++ (c.settings.style true).relation u.relation ++ ·) := by
  refine ⟨⟨?_, fun hcomplete => ⟨_, (copyAs_eq_ok_iff h).mpr ⟨rfl, hcomplete⟩⟩⟩, ?_, ?_⟩
  · rintro ⟨u, hu⟩
    exact ((copyAs_eq_ok_iff h).mp hu).2
  · intro e he
    have hfailure := resultUnless_copyAs h name
    rw [he] at hfailure
    obtain ⟨k, hk, r, hr, htable, hmissing, rfl⟩ := hfailure
    exact ⟨k, hk, r, hr, htable, column?_copyColumns_eq_none.mp hmissing, rfl⟩
  · intro u hu
    obtain ⟨rfl, -⟩ := (copyAs_eq_ok_iff h).mp hu
    refine ⟨rfl, fun c => ?_⟩
    obtain ⟨outcome, hbody⟩ := sameIn_renderBody_copied (s := c.settings) h hplain name
    exact ⟨outcome, createTable_of_renderBody fun p => (hbody p trivial).1,
      createTable_of_renderBody fun p => (hbody p trivial).2⟩

/-- The definition of the bookings after the table's name. -/
def bookingsBody : String :=
  " (\n    room INTEGER,\n    during tsrange,\n    confirmed BOOLEAN,\n    CHECK (room > 0),\n"
    ++ "    CONSTRAINT no_overlap EXCLUDE USING gist (room WITH =, during WITH &&)"
    ++ " WHERE (confirmed)\n)"

/-- The compiler of PostgreSQL defines the copy of the bookings like the bookings. The other one has
no rule for exclusions, and can define neither of them. -/
theorem createTable_copyAs_bookings :
    let t := (Ledger.run "bookings" bookings).table
    t.Reachable ∧ t.Plain ∧ t.Complete ∧
      ((Compiler.postgresql false).createTable t).1 =
        .ok ("CREATE TABLE hotel.bookings" ++ bookingsBody) ∧
      ((Compiler.generic false).createTable t).1 = .error (.noRule "exclude_constraint") ∧
      ∃ u, (t.copyAs "archive").2 = .ok u ∧ u.relation = ⟨some "hotel", "archive"⟩ ∧
        ((Compiler.postgresql false).createTable u).1 =
          .ok ("CREATE TABLE hotel.archive" ++ bookingsBody) ∧
        ((Compiler.generic false).createTable u).1 = .error (.noRule "exclude_constraint") := by
  intro t
  have hreachable : t.Reachable := reachable_bookings
  have htags : ∀ k ∈ t.constraints, ∀ n ∈ k.children, ∀ m ∈ n.preorder, m.tag ≠ "select" := by
    decide
  have hplain : t.Plain := ⟨fun k hk n hn => Node.selectFree_of_tag (htags k hk n hn), by decide⟩
  have hcomplete : t.Complete := by
    unfold Complete
    decide
  obtain ⟨hiff, -, hcopy⟩ := createTable_copyAs hreachable hplain "archive"
  obtain ⟨u, hu⟩ := hiff.mpr hcomplete
  obtain ⟨hrelation, -⟩ := hcopy u hu
  obtain ⟨rfl, -⟩ := (copyAs_eq_ok_iff hreachable).mp hu
  exact ⟨hreachable, hplain, hcomplete, by decide +kernel, by decide +kernel, _, hu, hrelation,
    by decide +kernel, by decide +kernel⟩

end Table

end SqlClause
