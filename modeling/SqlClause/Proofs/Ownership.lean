import SqlClause.Proofs.Outcome
import SqlClause.Schema.Copy

/-!
# What belongs to a table

The columns of a table and its constraints say which table they belong to, and the table can change
its schema, grow, and be copied in between. Columns always belong to the table as it is now, and no
constraint of a table has names that wait for one. A constraint belongs to the table as it was when
the constraint was attached: giving a table another schema takes its columns along, but not its
constraints.

* `Constraint.attach_spec`, `Table.exists_of_copyConstraints`: what one step does;
* `Ledger.Sound`: the invariant of a table, with the relations under which its constraints were
  attached;
* `Ledger.sound_after`: a change keeps it;
* **`Ledger.ownership_of_run`**: what belongs to a table after any changes, and when the constraints
  belong to the table as it is now.
-/

namespace SqlClause

/-! ## 1. Attaching and copying -/

namespace Constraint

/-- No entry of the constraint waits for a table. -/
def Resolved : Constraint → Prop
  | check _ => True
  | exclude c =>
      (∀ e ∈ c.elements, e.expression.isPending = false) ∧ ∀ e ∈ c.columns, e.isPending = false

variable {c k : Constraint} {t : Table} {notices : List Notice}

theorem isPending_of_settle {e e' : Entry} (h : e.settle t = .ok e') : e'.isPending = false := by
  obtain ⟨n, -, rfl⟩ := exists_of_map_eq_ok h
  rfl

/-- What is settled belongs to the table, and nothing in it is pending. -/
theorem settle_spec (h : c.settle t = .ok k) : k.parent = some t.relation ∧ k.Resolved := by
  cases c with
  | check c =>
      obtain rfl := Except.ok.inj h
      exact ⟨rfl, trivial⟩
  | exclude c =>
      obtain ⟨d, hd, rfl⟩ := exists_of_map_eq_ok h
      obtain ⟨elements, helements, hd⟩ := exists_of_bind_eq_ok hd
      obtain ⟨columns, hcolumns, hd⟩ := exists_of_bind_eq_ok hd
      obtain rfl := Except.ok.inj hd
      refine ⟨rfl, fun e he => ?_, fun e he => ?_⟩
      · obtain ⟨e₀, -, he₀⟩ := exists_of_mem_right (forall₂_of_mapM_eq_ok helements) he
        obtain ⟨x, hx, he₀⟩ := exists_of_bind_eq_ok he₀
        obtain rfl := Except.ok.inj he₀
        exact isPending_of_settle hx
      · obtain ⟨e₀, -, he₀⟩ := exists_of_mem_right (forall₂_of_mapM_eq_ok hcolumns) he
        exact isPending_of_settle he₀

/-- What is attached belonged to no table before, and is settled. -/
theorem settle_of_attach (h : c.attach t = .ok (k, notices)) :
    c.parent = none ∧ c.settle t = .ok k := by
  unfold attach at h
  split at h
  · cases h
  · rename_i hparent
    obtain ⟨attached, hsettle, h⟩ := exists_of_bind_eq_ok h
    obtain ⟨rfl, -⟩ := Prod.mk.inj (Except.ok.inj h)
    exact ⟨hparent, hsettle⟩

/-- **What is attached** belonged to no table before; it belongs to the table now, and nothing in it
is pending. -/
theorem attach_spec (h : c.attach t = .ok (k, notices)) :
    c.parent = none ∧ k.parent = some t.relation ∧ k.Resolved := by
  obtain ⟨hparent, hsettle⟩ := settle_of_attach h
  exact ⟨hparent, settle_spec hsettle⟩

end Constraint

namespace Table

variable {t u : Table} {c : Constraint} {notices : List Notice}

/-- A table with one more constraint has it at the end, attached. -/
theorem exists_of_append (h : t.append c = .ok (u, notices)) :
    ∃ k, c.attach t = .ok (k, notices) ∧ u = t.push k := by
  obtain ⟨⟨k, ns⟩, hattach, h⟩ := exists_of_bind_eq_ok h
  obtain ⟨rfl, rfl⟩ := Prod.mk.inj (Except.ok.inj h)
  exact ⟨k, hattach, rfl⟩

/-- The constraint was copied to a table with the name and the columns of this one, and attached to
it. -/
def Copied (t : Table) (c k : Constraint) : Prop :=
  ∃ v copy notices, v.relation = t.relation ∧ v.columns = t.columns ∧ c.copyTo v = .ok copy ∧
    copy.attach v = .ok (k, notices)

/-- **What is copied** is added to the table constraint by constraint, and nothing else changes. -/
theorem exists_of_copyConstraints : ∀ {cs : List Constraint} {t u : Table},
    (copyConstraints cs t).2 = .ok u →
      ∃ ks, u = { t with constraints := t.constraints ++ ks } ∧ List.Forall₂ (Copied t) cs ks
  | [], t, u, h => by
      obtain rfl := Except.ok.inj h
      exact ⟨[], by rw [List.append_nil], .nil⟩
  | c :: cs, t, u, h => by
      unfold copyConstraints at h
      split at h
      · cases h
      · rename_i v notices hv
        obtain ⟨copy, hcopy, happend⟩ := exists_of_bind_eq_ok hv
        obtain ⟨k, hattach, rfl⟩ := exists_of_append happend
        obtain ⟨ks, rfl, hks⟩ := exists_of_copyConstraints h
        refine ⟨k :: ks, ?_, .cons ⟨t, copy, notices, rfl, rfl, hcopy, hattach⟩ hks⟩
        simp only [push, List.append_assoc, List.singleton_append]

/-- A copy has the columns of its source and copies of its constraints. -/
theorem exists_of_copyAs {name : String} (h : (t.copyAs name).2 = .ok u) :
    ∃ ks, u = { t.copyColumns name with constraints := ks } ∧
      List.Forall₂ (Copied (t.copyColumns name)) t.constraints ks :=
  exists_of_copyConstraints h

theorem Copied.spec {k : Constraint} (h : Copied t c k) :
    k.parent = some t.relation ∧ k.Resolved := by
  obtain ⟨v, copy, notices, hv, -, -, hattach⟩ := h
  obtain ⟨-, hparent, hresolved⟩ := Constraint.attach_spec hattach
  exact ⟨hv ▸ hparent, hresolved⟩

/-! ## 2. Changes -/

/-- A change of a table. -/
inductive Change where
  /-- Begins another table. -/
  | ofName (name : String)
  | withSchema (schema : String)
  | addColumn (c : Column)
  | append (c : Constraint)
  /-- Goes on with a copy. -/
  | copyAs (name : String)

namespace Change

/-- The table after a change: as it was, if the change fails. -/
def apply (t : Table) : Change → Table
  | ofName name => .ofName name
  | withSchema schema => t.withSchema schema
  | addColumn c => t.addColumn c
  | append c =>
      match t.append c with
      | .ok (u, _) => u
      | .error _ => t
  | copyAs name =>
      match (t.copyAs name).2 with
      | .ok u => u
      | .error _ => t

/-- For each constraint of the table after a change, what the table was when the constraint was
attached. -/
def record (t : Table) (homes : List Relation) : Change → List Relation
  | ofName _ => []
  | withSchema _ | addColumn _ => homes
  | append c =>
      match t.append c with
      | .ok _ => homes ++ [t.relation]
      | .error _ => homes
  | copyAs name =>
      match (t.copyAs name).2 with
      | .ok u => u.constraints.map fun _ => u.relation
      | .error _ => homes

/-- The change gives no other schema to a table that has constraints. -/
def KeepsSchema (t : Table) : Change → Prop
  | withSchema schema => t.constraints = [] ∨ t.schema = some schema
  | ofName _ | addColumn _ | append _ | copyAs _ => True

end Change

/-- None of the changes gives another schema to a table that has constraints. -/
def Steady (t : Table) : List Change → Prop
  | [] => True
  | change :: changes => change.KeepsSchema t ∧ (change.apply t).Steady changes

end Table

/-- A table and, for each of its constraints, what the table was when the constraint was attached.
-/
structure Ledger where
  table : Table
  homes : List Relation

namespace Ledger

open Table

/-- A table of which nothing is known but its name. -/
def ofName (name : String) : Ledger := ⟨.ofName name, []⟩

def after (l : Ledger) (change : Change) : Ledger :=
  ⟨change.apply l.table, change.record l.table l.homes⟩

/-- The ledger after changes of a new table. -/
def run (name : String) (changes : List Change) : Ledger := changes.foldl after (ofName name)

/-- Attaching a constraint changes nothing, or adds the constraint and records what the table is. -/
theorem after_append (l : Ledger) (c : Constraint) :
    l.after (.append c) = l ∨ ∃ u notices, l.table.append c = .ok (u, notices) ∧
      l.after (.append c) = ⟨u, l.homes ++ [l.table.relation]⟩ := by
  cases hu : l.table.append c with
  | error e => exact .inl (by simp only [after, Change.apply, Change.record, hu])
  | ok result =>
      refine .inr ⟨result.1, result.2, rfl, ?_⟩
      simp only [after, Change.apply, Change.record, hu]

/-- Copying changes nothing, or goes on with a copy, to which all its constraints were attached. -/
theorem after_copyAs (l : Ledger) (name : String) :
    l.after (.copyAs name) = l ∨ ∃ u, (l.table.copyAs name).2 = .ok u ∧
      l.after (.copyAs name) = ⟨u, u.constraints.map fun _ => u.relation⟩ := by
  cases hu : (l.table.copyAs name).2 with
  | error e => exact .inl (by simp only [after, Change.apply, Change.record, hu])
  | ok u => exact .inr ⟨u, rfl, by simp only [after, Change.apply, Change.record, hu]⟩

/-! ## 3. The invariant -/

/-- Columns belong to the table as it is, constraints to the table as it was when they were
attached, and no constraint has names that wait for a table. -/
structure Sound (l : Ledger) : Prop where
  columns : ∀ c ∈ l.table.columns, c.table = some l.table.relation
  parents : l.table.constraints.map Constraint.parent = l.homes.map some
  resolved : ∀ c ∈ l.table.constraints, c.Resolved

theorem sound_ofName (name : String) : (ofName name).Sound where
  columns := fun _ h => nomatch h
  parents := rfl
  resolved := fun _ h => nomatch h

variable {l : Ledger}

/-- Another schema, or another column: the constraints are as they were. -/
theorem Sound.of_constraints_eq {t : Table} (h : l.Sound)
    (hcolumns : ∀ c ∈ t.columns, c.table = some t.relation)
    (hconstraints : t.constraints = l.table.constraints) : Sound ⟨t, l.homes⟩ where
  columns := hcolumns
  parents := by rw [hconstraints]; exact h.parents
  resolved := by rw [hconstraints]; exact h.resolved

theorem Sound.withSchema (h : l.Sound) (schema : String) :
    Sound ⟨l.table.withSchema schema, l.homes⟩ := by
  refine h.of_constraints_eq (fun c hc => ?_) rfl
  obtain ⟨_, -, rfl⟩ := List.mem_map.mp hc
  rfl

theorem Sound.addColumn (h : l.Sound) (c : Column) : Sound ⟨l.table.addColumn c, l.homes⟩ := by
  refine h.of_constraints_eq (fun d hd => ?_) rfl
  rcases List.mem_append.mp hd with hd | hd
  · exact h.columns d hd
  · rw [List.mem_singleton.mp hd]
    rfl

theorem Sound.append (h : l.Sound) {c : Constraint} {u : Table} {notices : List Notice}
    (hu : l.table.append c = .ok (u, notices)) : Sound ⟨u, l.homes ++ [l.table.relation]⟩ := by
  obtain ⟨k, hattach, rfl⟩ := exists_of_append hu
  obtain ⟨-, hparent, hresolved⟩ := Constraint.attach_spec hattach
  refine ⟨h.columns, ?_, fun d hd => ?_⟩
  · show (l.table.constraints ++ [k]).map Constraint.parent = _
    rw [List.map_append, List.map_append, h.parents, List.map_singleton, hparent]
    rfl
  · rcases List.mem_append.mp hd with hd | hd
    · exact h.resolved d hd
    · rw [List.mem_singleton.mp hd]
      exact hresolved

theorem sound_copyAs {t u : Table} {name : String} (hu : (t.copyAs name).2 = .ok u) :
    Sound ⟨u, u.constraints.map fun _ => u.relation⟩ := by
  obtain ⟨ks, rfl, hks⟩ := exists_of_copyAs hu
  have hspec : ∀ k ∈ ks, k.parent = some (t.copyColumns name).relation ∧ k.Resolved := by
    intro k hk
    obtain ⟨c, -, hcopied⟩ := exists_of_mem_right hks hk
    exact hcopied.spec
  refine ⟨fun c hc => ?_, ?_, fun k hk => (hspec k hk).2⟩
  · obtain ⟨_, -, rfl⟩ := List.mem_map.mp hc
    rfl
  · rw [List.map_map]
    exact List.map_congr_left fun k hk => (hspec k hk).1

/-- **A change keeps the invariant**, whether it fails or not. -/
theorem sound_after (h : l.Sound) (change : Change) : (l.after change).Sound := by
  cases change with
  | ofName name => exact sound_ofName name
  | withSchema schema => exact h.withSchema schema
  | addColumn c => exact h.addColumn c
  | append c =>
      rcases l.after_append c with hsame | ⟨u, notices, hu, hafter⟩
      · rw [hsame]
        exact h
      · rw [hafter]
        exact h.append hu
  | copyAs name =>
      rcases l.after_copyAs name with hsame | ⟨u, hu, hafter⟩
      · rw [hsame]
        exact h
      · rw [hafter]
        exact sound_copyAs hu

/-- The invariant holds after any changes. -/
theorem sound_run (name : String) (changes : List Change) : (run name changes).Sound :=
  List.foldlRecOn changes after (sound_ofName name) fun _ h change _ => sound_after h change

/-! ## 4. Constraints of the table as it is -/

/-- All constraints were attached to the table as it is now. -/
def Current (l : Ledger) : Prop := ∀ r ∈ l.homes, r = l.table.relation

/-- Without constraints nothing was attached. -/
theorem Sound.homes_eq_nil (h : l.Sound) (hnone : l.table.constraints = []) : l.homes = [] := by
  have hparents := h.parents
  rw [hnone] at hparents
  exact List.map_eq_nil_iff.mp hparents.symm

theorem current_after (h : l.Sound) (hcurrent : l.Current) {change : Change}
    (hkeeps : change.KeepsSchema l.table) : (l.after change).Current := by
  cases change with
  | ofName name => exact fun _ hr => nomatch hr
  | withSchema schema =>
      rcases hkeeps with hnone | hsame
      · have hhomes : (l.after (.withSchema schema)).homes = [] := h.homes_eq_nil hnone
        rw [Current, hhomes]
        exact fun _ hr => nomatch hr
      · have hrelation : (l.after (.withSchema schema)).table.relation = l.table.relation :=
          congrArg (Relation.mk · l.table.name) hsame.symm
        rw [Current, hrelation]
        exact hcurrent
  | addColumn c => exact hcurrent
  | append c =>
      rcases l.after_append c with hsame | ⟨u, notices, hu, hafter⟩
      · rw [hsame]
        exact hcurrent
      · obtain ⟨k, -, rfl⟩ := exists_of_append hu
        rw [hafter]
        intro r hr
        rcases List.mem_append.mp hr with hr | hr
        · exact hcurrent r hr
        · exact List.mem_singleton.mp hr
  | copyAs name =>
      rcases l.after_copyAs name with hsame | ⟨u, hu, hafter⟩
      · rw [hsame]
        exact hcurrent
      · rw [hafter]
        intro r hr
        obtain ⟨_, -, rfl⟩ := List.mem_map.mp hr
        rfl

/-- As long as no schema is given to a table with constraints, they belong to the table as it is. -/
theorem current_foldl : ∀ (changes : List Change) {l : Ledger}, l.Sound → l.Current →
    l.table.Steady changes → (changes.foldl after l).Current
  | [], _, _, hcurrent, _ => hcurrent
  | change :: changes, _, h, hcurrent, hsteady =>
      current_foldl changes (sound_after h change) (current_after h hcurrent hsteady.1) hsteady.2

/-- The constraints of a sound table belong to it as it is exactly if they were attached to it as it
is. -/
theorem Sound.parents_eq_iff (h : l.Sound) :
    (∀ c ∈ l.table.constraints, c.parent = some l.table.relation) ↔ l.Current := by
  have hparents : ∀ r : Option Relation,
      r ∈ l.table.constraints.map Constraint.parent ↔ r ∈ l.homes.map some := by
    intro r
    rw [h.parents]
  constructor
  · intro hall r hr
    obtain ⟨c, hc, hparent⟩ := List.mem_map.mp ((hparents (some r)).mpr (List.mem_map_of_mem hr))
    exact Option.some.inj (hparent.symm.trans (hall c hc))
  · intro hcurrent c hc
    obtain ⟨r, hr, hparent⟩ := List.mem_map.mp ((hparents c.parent).mp (List.mem_map_of_mem hc))
    rw [← hparent, hcurrent r hr]

/-- **What belongs to a table** after any changes, of which some may fail. Every column belongs to
the table as it is now, no constraint has an entry that waits for a table, and every constraint
belongs to the table as it was when the constraint was attached. So the constraints belong to the
table as it is now exactly if they were attached to it as it is now, and they do if none of the
changes gave another schema to a table that had constraints. -/
theorem ownership_of_run (name : String) (changes : List Change) :
    let l := run name changes
    (∀ c ∈ l.table.columns, c.table = some l.table.relation) ∧
    (∀ c ∈ l.table.constraints, c.Resolved) ∧
    l.table.constraints.map Constraint.parent = l.homes.map some ∧
    ((∀ c ∈ l.table.constraints, c.parent = some l.table.relation) ↔
      ∀ r ∈ l.homes, r = l.table.relation) ∧
    ((Table.ofName name).Steady changes →
      ∀ c ∈ l.table.constraints, c.parent = some l.table.relation) := by
  intro l
  have h : l.Sound := sound_run name changes
  refine ⟨h.columns, h.resolved, h.parents, h.parents_eq_iff, fun hsteady => ?_⟩
  have hcurrent : l.Current :=
    current_foldl changes (sound_ofName name) (fun _ hr => nomatch hr) hsteady
  exact h.parents_eq_iff.mpr hcurrent

/-- A table that has its schema before its first constraint keeps its constraints. -/
example : (Table.ofName "rooms").Steady
    [.withSchema "hotel", .addColumn (.ofType "floor" .integer),
      .append (.check (.ofCondition (Node.column "floor"))), .copyAs "suites"] :=
  ⟨.inl rfl, trivial, trivial, trivial, trivial⟩

/-- A table with a constraint that is then given a schema. -/
def movedWithCheck : List Change :=
  [.addColumn (.ofType "floor" .integer), .append (.check (.ofCondition (Node.column "floor"))),
    .withSchema "hotel"]

/-- **A constraint does not go with the table** into another schema: it still says that it belongs
to the table without a schema, which the columns have left. -/
theorem withSchema_leaves_constraint :
    let t := (run "rooms" movedWithCheck).table
    t.relation = ⟨some "hotel", "rooms"⟩ ∧
      t.columns.map Column.table = [some ⟨some "hotel", "rooms"⟩] ∧
      t.constraints.map Constraint.parent = [some ⟨none, "rooms"⟩] ∧
      ¬ ∀ c ∈ t.constraints, c.parent = some t.relation := by
  refine ⟨rfl, rfl, rfl, fun hall => ?_⟩
  have hmoved := hall _ List.mem_cons_self
  cases hmoved

end Ledger

end SqlClause
