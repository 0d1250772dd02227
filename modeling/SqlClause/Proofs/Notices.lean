import SqlClause.Proofs.Attachment

/-!
# What listeners are told

Tables and constraints lie on a workbench. Constraints are attached there in place, handed over to
tables, and copied along with tables; in between, tables and constraints are made and changed. Any
of this may fail. All that the listeners are told are the attachments that succeed, and each of
these is told once: to the listeners of the first phase, and then to those of the second.

* `Attachment.attach_eq`: attaching in terms of attachments;
* `Attachment.sound_of_attempt`: what the listeners of an attachment see;
* `Attachment.copyConstraints_cases`: which attachments a copy makes, and how far it comes;
* `Workbench.told_after`: what is told in one call;
* **`Workbench.told_of_run`**: what is told in any calls.
-/

namespace SqlClause

/-! ## 1. Attachments -/

/-- An attachment: the constraint and the table as they were, and what the constraint has become. -/
structure Attachment where
  fresh : Constraint
  table : Table
  attached : Constraint

namespace Attachment

/-- The attachment of the constraint to the table, if it succeeds. -/
def attempt (c : Constraint) (t : Table) : Except Error Attachment :=
  match Constraint.setParent t ⟨c, []⟩ with
  | (.ok (), held) => .ok ⟨c, t, held.value⟩
  | (.error e, _) => .error e

/-- What is told of an attachment: the constraint as it was to the listeners of the first phase, and
then the constraint as it has become to those of the second, each time with the table as it was. -/
def notices (a : Attachment) : List Notice :=
  a.fresh.listeners.before.map (⟨.before, ·, a.fresh, a.table⟩)
    ++ a.fresh.listeners.after.map (⟨.after, ·, a.attached, a.table⟩)

/-- Before a constraint is attached it has no table. Afterwards it belongs to the table, all that it
waited for is settled, nothing else has changed, and it has the same listeners. -/
structure Sound (a : Attachment) : Prop where
  free : a.fresh.parent = none
  settles : a.fresh.Settles a.table a.attached
  parent : a.attached.parent = some a.table.relation
  resolved : a.attached.Resolved
  listeners : a.attached.listeners = a.fresh.listeners

variable {c : Constraint} {t u : Table} {a : Attachment}

/-- **Attaching** in terms of attachments. -/
theorem attach_eq (c : Constraint) (t : Table) :
    c.attach t = (attempt c t).map fun a => (a.attached, a.notices) := by
  unfold attempt
  rw [Constraint.setParent_apply]
  cases hattach : c.attach t with
  | error e => rfl
  | ok result =>
      obtain ⟨k, told⟩ := result
      obtain ⟨hparent, hsettle⟩ := Constraint.settle_of_attach hattach
      rw [Constraint.attach, hparent] at hattach
      simp only [hsettle] at hattach
      obtain ⟨-, rfl⟩ := Prod.mk.inj (Except.ok.inj hattach)
      rfl

theorem append_eq (c : Constraint) (t : Table) :
    t.append c = (attempt c t).map fun a => (t.push a.attached, a.notices) := by
  rw [Table.append, attach_eq]
  cases attempt c t <;> rfl

theorem setParent_eq (c : Constraint) (t : Table) (told : List Notice) :
    Constraint.setParent t ⟨c, told⟩ = match attempt c t with
      | .ok a => (.ok (), ⟨a.attached, told ++ a.notices⟩)
      | .error e => (.error e, ⟨c, told⟩) := by
  rw [Constraint.setParent_apply, attach_eq]
  cases attempt c t <;> rfl

theorem appendConstraint_eq (c : Constraint) (t : Table) (told : List Notice) :
    Table.appendConstraint c ⟨t, told⟩ = match attempt c t with
      | .ok a => (.ok (), ⟨t.push a.attached, told ++ a.notices⟩)
      | .error e => (.error e, ⟨t, told⟩) := by
  rw [Table.appendConstraint_apply, append_eq]
  cases attempt c t <;> rfl

theorem eq_of_attempt (h : attempt c t = .ok a) : a.fresh = c ∧ a.table = t := by
  unfold attempt at h
  split at h
  · obtain rfl := Except.ok.inj h
    exact ⟨rfl, rfl⟩
  · cases h

/-- Settling leaves the listeners as they are. -/
theorem listeners_of_settles {k : Constraint} (h : c.Settles t k) : k.listeners = c.listeners := by
  cases h <;> rfl

/-- **What the listeners of an attachment see.** -/
theorem sound_of_attempt (h : attempt c t = .ok a) : a.Sound := by
  obtain ⟨rfl, rfl⟩ := eq_of_attempt h
  have hattach : a.fresh.attach a.table = .ok (a.attached, a.notices) := by rw [attach_eq, h]; rfl
  obtain ⟨hfree, hsettle⟩ := Constraint.settle_of_attach hattach
  have hsettles := Constraint.settles_of_settle hsettle
  obtain ⟨hparent, hresolved⟩ := Constraint.settle_spec hsettle
  exact ⟨hfree, hsettles, hparent, hresolved, listeners_of_settles hsettles⟩

/-! ## 2. Copies -/

/-- The attachments of copies of the constraints to the table, one after the other, up to the first
constraint that cannot be copied and attached. -/
def ofCopies : List Constraint → Table → List Attachment
  | [], _ => []
  | c :: cs, t =>
      match c.copyTo t >>= (attempt · t) with
      | .error _ => []
      | .ok a => a :: ofCopies cs (t.push a.attached)

/-- The attachments are those of copies of the constraints, in order, with the listeners that the
constraints have. The table of each is the first table with the copies before it, and the second
table is the first one with all of them. -/
inductive Copying : List Constraint → Table → List Attachment → Table → Prop where
  | nil (t : Table) : Copying [] t [] t
  | cons {c : Constraint} {cs : List Constraint} {a : Attachment} {as : List Attachment} {u : Table}
      (hcopy : c.copyTo a.table = .ok a.fresh) (hlisteners : a.fresh.listeners = c.listeners)
      (hsound : a.Sound) (hrest : Copying cs (a.table.push a.attached) as u) :
      Copying (c :: cs) a.table (a :: as) u

/-- A copy has the listeners of its source. -/
theorem listeners_of_copyTo {k : Constraint} (h : c.copyTo t = .ok k) :
    k.listeners = c.listeners := by
  cases c with
  | check c =>
      obtain ⟨d, hd, rfl⟩ := exists_of_map_eq_ok h
      obtain ⟨n, -, hd⟩ := exists_of_bind_eq_ok hd
      obtain rfl := Except.ok.inj hd
      rfl
  | exclude c =>
      obtain ⟨d, hd, rfl⟩ := exists_of_map_eq_ok h
      obtain ⟨pairs, -, hd⟩ := exists_of_bind_eq_ok hd
      obtain ⟨criterion, -, hd⟩ := exists_of_bind_eq_ok hd
      obtain ⟨copy, hbuild, hd⟩ := exists_of_bind_eq_ok hd
      obtain rfl := Except.ok.inj hd
      obtain ⟨-, -, members, read, -, -, rfl⟩ := ExcludeConstraint.build_eq_ok_iff.mp hbuild
      rfl

theorem copyConstraints_cons (c : Constraint) (cs : List Constraint) (t : Table) :
    Table.copyConstraints (c :: cs) t = match c.copyTo t >>= (attempt · t) with
      | .error e => ([], .error e)
      | .ok a =>
          let (later, outcome) := Table.copyConstraints cs (t.push a.attached)
          (a.notices ++ later, outcome) := by
  have happend : (c.copyTo t >>= t.append) =
      (c.copyTo t >>= (attempt · t)).map fun a => (t.push a.attached, a.notices) := by
    cases c.copyTo t with
    | error e => rfl
    | ok copy => exact append_eq copy t
  rw [Table.copyConstraints, happend]
  cases c.copyTo t >>= (attempt · t) <;> rfl

/-- **How far a copy comes.** All constraints are copied and attached, or all before one that cannot
be copied and attached; what is told is what is told of the attachments. -/
theorem copyConstraints_cases : ∀ (cs : List Constraint) (t : Table),
    (∃ u, Copying cs t (ofCopies cs t) u ∧
      Table.copyConstraints cs t = ((ofCopies cs t).flatMap notices, .ok u)) ∨
    ∃ j c u e, cs[j]? = some c ∧ Copying (cs.take j) t (ofCopies cs t) u ∧
      (c.copyTo u >>= u.append) = .error e ∧
      Table.copyConstraints cs t = ((ofCopies cs t).flatMap notices, .error e)
  | [], t => .inl ⟨t, .nil t, rfl⟩
  | c :: cs, t => by
      rw [copyConstraints_cons, ofCopies]
      cases hfirst : c.copyTo t >>= (attempt · t) with
      | error e =>
          refine .inr ⟨0, c, t, e, rfl, .nil t, ?_, rfl⟩
          cases hcopy : c.copyTo t with
          | error e' =>
              rw [hcopy] at hfirst
              exact congrArg Except.error (Except.error.inj hfirst)
          | ok copy =>
              rw [hcopy] at hfirst
              have hfails : attempt copy t = .error e := hfirst
              show t.append copy = _
              rw [append_eq, hfails]
              rfl
      | ok a =>
          obtain ⟨copy, hcopy, ha⟩ := exists_of_bind_eq_ok hfirst
          obtain ⟨rfl, rfl⟩ := eq_of_attempt ha
          have hlisteners := listeners_of_copyTo hcopy
          have hsound := sound_of_attempt ha
          rcases copyConstraints_cases cs (a.table.push a.attached) with
            ⟨u, hcopies, heq⟩ | ⟨j, d, u, e, hj, hcopies, hfails, heq⟩
          · refine .inl ⟨u, .cons hcopy hlisteners hsound hcopies, ?_⟩
            simp only [heq, List.flatMap_cons]
          · refine .inr ⟨j + 1, d, u, e, hj, .cons hcopy hlisteners hsound hcopies, hfails, ?_⟩
            simp only [heq, List.flatMap_cons]

namespace Copying

variable {cs : List Constraint} {as : List Attachment}

/-- A copy adds what was attached to the list of the table. -/
theorem constraints_eq (h : Copying cs t as u) :
    u.constraints = t.constraints ++ as.map Attachment.attached := by
  induction h with
  | nil t => rw [List.map_nil, List.append_nil]
  | cons _ _ _ _ ih =>
      rw [ih, Table.push, List.map_cons, List.append_assoc, List.singleton_append]

/-- What was attached has the listeners of what was copied. -/
theorem listeners_eq (h : Copying cs t as u) :
    as.map (fun a => a.attached.listeners) = cs.map Constraint.listeners := by
  induction h with
  | nil => rfl
  | cons _ hlisteners hsound _ ih =>
      rw [List.map_cons, List.map_cons, ih, hsound.listeners, hlisteners]

theorem sound (h : Copying cs t as u) : ∀ a ∈ as, a.Sound := by
  induction h with
  | nil => exact List.forall_mem_nil _
  | cons _ _ hsound _ ih => exact List.forall_mem_cons.mpr ⟨hsound, ih⟩

end Copying

/-- The attachments of copies, as far as they come. -/
theorem sound_ofCopies (cs : List Constraint) (t : Table) : ∀ a ∈ ofCopies cs t, a.Sound := by
  rcases copyConstraints_cases cs t with ⟨u, hcopies, -⟩ | ⟨j, c, u, e, -, hcopies, -⟩
  · exact hcopies.sound
  · exact hcopies.sound

theorem told_copyConstraints (cs : List Constraint) (t : Table) :
    (Table.copyConstraints cs t).1 = (ofCopies cs t).flatMap notices := by
  rcases copyConstraints_cases cs t with ⟨u, -, heq⟩ | ⟨j, c, u, e, -, -, -, heq⟩
  · rw [heq]
  · rw [heq]

end Attachment

open Attachment

/-- A copy of a table carries the listeners that the table carries, constraint by constraint. -/
theorem Table.listeners_copyAs {t u : Table} {name : String} (h : (t.copyAs name).2 = .ok u) :
    u.constraints.map Constraint.listeners = t.constraints.map Constraint.listeners := by
  rcases copyConstraints_cases t.constraints (t.copyColumns name) with
    ⟨v, hcopies, heq⟩ | ⟨j, c, v, e, -, -, -, heq⟩
  · obtain rfl : v = u := by
      rw [copyAs, heq] at h
      exact Except.ok.inj h
    rw [hcopies.constraints_eq, ← hcopies.listeners_eq]
    show (([] : List Constraint) ++ _).map _ = _
    rw [List.nil_append, List.map_map]
    rfl
  · rw [copyAs, heq] at h
    cases h

/-- So does a copy of copies. -/
theorem Table.listeners_copies : ∀ (names : List String) {t u : Table},
    names.foldlM (fun t name => (t.copyAs name).2) t = .ok u →
      u.constraints.map Constraint.listeners = t.constraints.map Constraint.listeners
  | [], t, u, h => by
      obtain rfl : t = u := Except.ok.inj h
      rfl
  | name :: names, t, u, h => by
      rw [List.foldlM_cons] at h
      obtain ⟨v, hv, h⟩ := exists_of_bind_eq_ok h
      rw [listeners_copies names h, listeners_copyAs hv]

/-! ## 3. The workbench -/

/-- Tables and constraints, and what the listeners have been told. -/
structure Workbench where
  tables : List Table
  constraints : List Constraint
  told : List Notice

namespace Workbench

/-- A call. Tables and constraints are called by their positions; a call of what is not there does
nothing. -/
inductive Call where
  /-- Puts a table on the workbench. -/
  | table (t : Table)
  | withSchema (j : Nat) (schema : String)
  | addColumn (j : Nat) (c : Column)
  /-- Puts a constraint on the workbench: a new one, or a clone or a copy of any other. -/
  | constraint (c : Constraint)
  | listen (i : Nat) (phase : Phase) (listener : String)
  /-- Attaches a constraint in place. -/
  | setParent (i j : Nat)
  /-- Hands a constraint over to a table. It is not on the workbench afterwards, even if the table
  does not take it. -/
  | append (i j : Nat)
  /-- Copies a table. -/
  | copyAs (j : Nat) (name : String)

/-- The constraint and the table at the positions, if there are both. -/
def pair? (w : Workbench) (i j : Nat) : Option (Constraint × Table) := do
  return (← w.constraints[i]?, ← w.tables[j]?)

/-- Attaches the constraint in place. -/
def setParent (w : Workbench) (i j : Nat) : Workbench :=
  match w.pair? i j with
  | some (c, t) =>
      let held := (Constraint.setParent t ⟨c, w.told⟩).2
      { w with constraints := w.constraints.set i held.value, told := held.told }
  | none => w

/-- Hands the constraint over to the table. -/
def append (w : Workbench) (i j : Nat) : Workbench :=
  match w.pair? i j with
  | some (c, t) =>
      let held := (Table.appendConstraint c ⟨t, w.told⟩).2
      ⟨w.tables.set j held.value, w.constraints.eraseIdx i, held.told⟩
  | none => w

/-- Copies the table; the copy comes behind the other tables. -/
def copyAs (w : Workbench) (j : Nat) (name : String) : Workbench :=
  match w.tables[j]? with
  | some t =>
      let (notices, outcome) := t.copyAs name
      { w with tables := w.tables ++ outcome.toOption.toList, told := w.told ++ notices }
  | none => w

/-- The workbench after a call, whether the call fails or not. -/
def after (w : Workbench) : Call → Workbench
  | .table t => { w with tables := w.tables ++ [t] }
  | .withSchema j schema => { w with tables := w.tables.modify j (·.withSchema schema) }
  | .addColumn j c => { w with tables := w.tables.modify j (·.addColumn c) }
  | .constraint c => { w with constraints := w.constraints ++ [c] }
  | .listen i phase listener =>
      { w with constraints := w.constraints.modify i (·.listen phase listener) }
  | .setParent i j => w.setParent i j
  | .append i j => w.append i j
  | .copyAs j name => w.copyAs j name

/-- The workbench after calls. -/
def run (w : Workbench) (calls : List Call) : Workbench := calls.foldl after w

/-- The attachment of the constraint to the table, if it succeeds. -/
def attempted (w : Workbench) (i j : Nat) : List Attachment :=
  ((w.pair? i j).bind fun (c, t) => (attempt c t).toOption).toList

/-- The attachments that copying the table makes. -/
def copied (w : Workbench) (j : Nat) (name : String) : List Attachment :=
  (w.tables[j]?.map fun t => ofCopies t.constraints (t.copyColumns name)).getD []

/-- The attachments that a call makes. -/
def attachments (w : Workbench) : Call → List Attachment
  | .setParent i j | .append i j => w.attempted i j
  | .copyAs j name => w.copied j name
  | .table _ | .withSchema .. | .addColumn .. | .constraint _ | .listen .. => []

/-- The attachments that calls make, in order. -/
def history : Workbench → List Call → List Attachment
  | _, [] => []
  | w, call :: calls => w.attachments call ++ history (w.after call) calls

section Pair

variable {w : Workbench} {i j : Nat} {c : Constraint} {t : Table} {a : Attachment} {e : Error}

theorem attempted_of_pair? (h : w.pair? i j = some (c, t)) :
    w.attempted i j = (attempt c t).toOption.toList := by
  rw [attempted, h]
  rfl

/-- An attachment in place changes the constraint and no table. -/
theorem setParent_of_ok (h : w.pair? i j = some (c, t)) (ha : attempt c t = .ok a) :
    w.setParent i j =
      ⟨w.tables, w.constraints.set i a.attached, w.told ++ a.notices⟩ := by
  simp only [setParent, h, setParent_eq, ha]

theorem setParent_of_error (h : w.pair? i j = some (c, t)) (he : attempt c t = .error e) :
    w.setParent i j = { w with constraints := w.constraints.set i c } := by
  simp only [setParent, h, setParent_eq, he]

/-- A table that is handed a constraint has it at the end of its list. -/
theorem append_of_ok (h : w.pair? i j = some (c, t)) (ha : attempt c t = .ok a) :
    w.append i j =
      ⟨w.tables.set j (t.push a.attached), w.constraints.eraseIdx i, w.told ++ a.notices⟩ := by
  simp only [append, h, appendConstraint_eq, ha]

theorem append_of_error (h : w.pair? i j = some (c, t)) (he : attempt c t = .error e) :
    w.append i j = ⟨w.tables.set j t, w.constraints.eraseIdx i, w.told⟩ := by
  simp only [append, h, appendConstraint_eq, he]

end Pair

variable (w : Workbench)

/-- What is told in an attempt, in place or by a table. -/
theorem told_attempted (i j : Nat) :
    (w.setParent i j).told = w.told ++ (w.attempted i j).flatMap notices ∧
      (w.append i j).told = w.told ++ (w.attempted i j).flatMap notices := by
  cases h : w.pair? i j with
  | none =>
      rw [setParent, append, attempted, h]
      exact ⟨(List.append_nil _).symm, (List.append_nil _).symm⟩
  | some pair =>
      obtain ⟨c, t⟩ := pair
      rw [attempted_of_pair? h]
      cases ha : attempt c t with
      | error e =>
          rw [setParent_of_error h ha, append_of_error h ha]
          exact ⟨(List.append_nil _).symm, (List.append_nil _).symm⟩
      | ok a =>
          have hone : (Except.ok (ε := Error) a).toOption.toList.flatMap notices = a.notices :=
            List.append_nil _
          rw [setParent_of_ok h ha, append_of_ok h ha, hone]
          exact ⟨rfl, rfl⟩

theorem told_copyAs (j : Nat) (name : String) :
    (w.copyAs j name).told = w.told ++ (w.copied j name).flatMap notices := by
  unfold copyAs copied
  cases w.tables[j]? with
  | none => exact (List.append_nil _).symm
  | some t => exact congrArg (w.told ++ ·) (told_copyConstraints _ _)

/-- **What is told in a call** is what is told of the attachments that the call makes. -/
theorem told_after (call : Call) :
    (w.after call).told = w.told ++ (w.attachments call).flatMap notices := by
  cases call with
  | setParent i j => exact (w.told_attempted i j).1
  | append i j => exact (w.told_attempted i j).2
  | copyAs j name => exact w.told_copyAs j name
  | table | withSchema | addColumn | constraint | listen => exact (List.append_nil _).symm

theorem sound_attempted (i j : Nat) : ∀ a ∈ w.attempted i j, a.Sound := by
  cases h : w.pair? i j with
  | none =>
      rw [attempted, h]
      exact List.forall_mem_nil _
  | some pair =>
      obtain ⟨c, t⟩ := pair
      rw [attempted_of_pair? h]
      cases ha : attempt c t with
      | error e => exact List.forall_mem_nil _
      | ok a => exact List.forall_mem_singleton.mpr (sound_of_attempt ha)

theorem sound_copied (j : Nat) (name : String) : ∀ a ∈ w.copied j name, a.Sound := by
  unfold copied
  cases w.tables[j]? with
  | none => exact List.forall_mem_nil _
  | some t => exact sound_ofCopies t.constraints (t.copyColumns name)

/-- The attachments that a call makes are sound. -/
theorem sound_attachments (call : Call) : ∀ a ∈ w.attachments call, a.Sound := by
  cases call with
  | setParent i j | append i j => exact w.sound_attempted i j
  | copyAs j name => exact w.sound_copied j name
  | table | withSchema | addColumn | constraint | listen => exact List.forall_mem_nil _

theorem told_run : ∀ (calls : List Call) (w : Workbench),
    (w.run calls).told = w.told ++ (w.history calls).flatMap notices
  | [], w => (List.append_nil _).symm
  | call :: calls, w => by
      show ((w.after call).run calls).told = _
      rw [told_run calls, told_after, history, List.flatMap_append, List.append_assoc]

theorem sound_history : ∀ (calls : List Call) (w : Workbench), ∀ a ∈ w.history calls, a.Sound
  | [], _ => List.forall_mem_nil _
  | call :: calls, w =>
      List.forall_mem_append.mpr ⟨w.sound_attachments call, sound_history calls (w.after call)⟩

/-- **What is told in any calls.** The listeners are told of the attachments that succeed, one after
the other, and of nothing else. In each of them the listeners of the first phase see a constraint
that has no table and waits for what it waited for, and those of the second phase see one that
belongs to the table and waits for nothing.

What they see of the table is the table as it was: one that is handed the constraint has it at the
end of its list only afterwards, and one that the constraint is attached to in place does not get
it. Nothing is told of an attempt that fails.

A copy of a table makes the attachments of copies of all its constraints, each with the listeners of
its source, or, if a constraint cannot be copied and attached, those of the constraints before it.
So copies of copies have the listeners of the first table. -/
theorem told_of_run (w : Workbench) (calls : List Call) :
    let v := w.run calls
    v.told = w.told ++ (w.history calls).flatMap notices ∧
    (∀ a ∈ w.history calls, a.Sound) ∧
    (∀ i j c t, v.pair? i j = some (c, t) →
      (∀ a, attempt c t = .ok a → a.fresh = c ∧ a.table = t ∧
        v.setParent i j = ⟨v.tables, v.constraints.set i a.attached, v.told ++ a.notices⟩ ∧
        v.append i j =
          ⟨v.tables.set j (t.push a.attached), v.constraints.eraseIdx i, v.told ++ a.notices⟩) ∧
      ∀ e, attempt c t = .error e →
        (v.setParent i j).told = v.told ∧ (v.append i j).told = v.told) ∧
    (∀ (t : Table) (name : String),
      let as := ofCopies t.constraints (t.copyColumns name)
      (t.copyAs name).1 = as.flatMap notices ∧
      ((∃ u, (t.copyAs name).2 = .ok u ∧ Copying t.constraints (t.copyColumns name) as u) ∨
        ∃ j c u e, t.constraints[j]? = some c ∧ (c.copyTo u >>= u.append) = .error e ∧
          (t.copyAs name).2 = .error e ∧
          Copying (t.constraints.take j) (t.copyColumns name) as u)) ∧
    ∀ (t : Table) (names : List String) (u : Table),
      names.foldlM (fun t name => (t.copyAs name).2) t = .ok u →
        u.constraints.map Constraint.listeners = t.constraints.map Constraint.listeners := by
  intro v
  refine ⟨told_run calls w, sound_history calls w, fun i j c t hpair => ⟨fun a ha => ?_, ?_⟩, ?_,
    fun t names u => Table.listeners_copies names⟩
  · obtain ⟨hfresh, htable⟩ := eq_of_attempt ha
    exact ⟨hfresh, htable, setParent_of_ok hpair ha, append_of_ok hpair ha⟩
  · intro e he
    rw [setParent_of_error hpair he, append_of_error hpair he]
    exact ⟨rfl, rfl⟩
  · intro t name as
    refine ⟨told_copyConstraints t.constraints (t.copyColumns name), ?_⟩
    rcases copyConstraints_cases t.constraints (t.copyColumns name) with
      ⟨u, hcopies, heq⟩ | ⟨j, c, u, e, hj, hcopies, hfails, heq⟩
    · exact .inl ⟨u, congrArg Prod.snd heq, hcopies⟩
    · exact .inr ⟨j, c, u, e, hj, hfails, congrArg Prod.snd heq, hcopies⟩

open Table (lobby stays noOverlap) in
/-- A table that lacks a column takes nothing and says nothing; the copy of the table that has taken
the constraint says it again. -/
example :
    let w := (Workbench.mk [lobby, stays] [.exclude noOverlap] []).run
      [.listen 0 .before "old", .listen 0 .after "new", .setParent 0 0, .append 0 1,
        .copyAs 1 "nights"]
    w.told.map (fun n =>
        (n.listener, n.constraint.parent, n.table.name, n.table.constraints.length))
      = [("old", none, "stays", 0), ("new", some ⟨none, "stays"⟩, "stays", 0),
        ("old", none, "nights", 0), ("new", some ⟨none, "nights"⟩, "nights", 0)] := by
  rfl

end Workbench

end SqlClause
