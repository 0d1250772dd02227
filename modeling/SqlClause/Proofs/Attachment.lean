import SqlClause.Proofs.TableCopy
import SqlClause.Schema.InPlace

/-!
# Attempts to attach a constraint

A constraint can be offered to one table after the other until a table takes it. A table takes it if
it has a column for every name that an element waits for; the names that the columns of the
constraint wait for are among these. A table that does not take the constraint leaves it as it was,
and once it is taken every later attempt fails and names the table that has it.

* `Constraint.setParent_apply`, `Table.appendConstraint_apply`: what is done in place comes to what
  `Constraint.attach` and `Table.append` give;
* `Constraint.Built.namesCovered`: what the columns of a constraint wait for;
* `Constraint.failure?_settle`: which names a table lacks;
* `Constraint.settles_of_settle`: what becomes of a constraint that is taken;
* `Held.attempts_cases`: what any attempts come to;
* `Constraint.eq_alreadyAttached_iff`: when an attempt comes too late;
* **`Constraint.attachment_lifecycle`**: the whole of it, attempt by attempt.
-/

namespace SqlClause

/-! ## 1. Steps in place -/

namespace HoldM

variable {α β γ : Type}

theorem bind_apply (x : HoldM α β) (f : β → HoldM α γ) (h : Held α) :
    (x >>= f) h = match x h with
      | (.ok b, h) => f b h
      | (.error e, h) => (.error e, h) := by
  simp only [bind, ExceptT.bind, ExceptT.mk, StateT.bind]
  rcases x h with ⟨e | b, h'⟩ <;> rfl

theorem current_apply (h : Held α) : current h = (.ok h.value, h) := rfl

theorem change_apply (f : α → α) (h : Held α) :
    change f h = (.ok (), { h with value := f h.value }) := rfl

theorem tell_apply (constraint : α → Constraint) (phase : Phase) (t : Table) (h : Held α) :
    tell constraint phase t h = (.ok (), { h with told := h.told ++
      ((constraint h.value).listeners.of phase).map (⟨phase, ·, constraint h.value, t⟩) }) := rfl

theorem ofExcept_apply (x : Except Error β) (h : Held α) :
    (MonadExcept.ofExcept x : HoldM α β) h = (x, h) := by
  cases x <;> rfl

theorem requireFree_none (h : Held α) : requireFree none h = (.ok (), h) := rfl

end HoldM

open HoldM

/-- A condition is given its parent between the two phases, unless it has one. -/
theorem CheckConstraint.setParent_apply (c : CheckConstraint) (t : Table) (told : List Notice) :
    setParent t ⟨c, told⟩ = match c.parent with
      | some parent => (.error (.alreadyAttached parent.name), ⟨c, told⟩)
      | none =>
          let k := { c with parent := some t.relation }
          (.ok (), ⟨k, told ++ (c.listeners.before.map (⟨.before, ·, .check c, t⟩)
            ++ c.listeners.after.map (⟨.after, ·, .check k, t⟩))⟩) := by
  simp only [setParent, bind_apply, current_apply]
  cases c.parent with
  | some parent => rfl
  | none =>
      simp only [requireFree_none, tell_apply, change_apply, List.append_assoc]
      rfl

/-- To settle an exclusion is to settle its elements and its columns. -/
theorem ExcludeConstraint.settle_eq (c : ExcludeConstraint) (t : Table) :
    c.settle t = do
      let elements ← c.elements.mapM (·.settle t)
      let columns ← c.columns.mapM (·.settle t)
      return { c with elements, columns, parent := some t.relation } := rfl

/-- An exclusion is settled between the two phases, unless it has a parent or cannot be settled. -/
theorem ExcludeConstraint.setParent_apply (c : ExcludeConstraint) (t : Table)
    (told : List Notice) :
    setParent t ⟨c, told⟩ = match c.parent with
      | some parent => (.error (.alreadyAttached parent.name), ⟨c, told⟩)
      | none => match c.settle t with
          | .ok k => (.ok (), ⟨k, told ++ (c.listeners.before.map (⟨.before, ·, .exclude c, t⟩)
              ++ c.listeners.after.map (⟨.after, ·, .exclude k, t⟩))⟩)
          | .error e => (.error e, ⟨c, told⟩) := by
  simp only [setParent, bind_apply, current_apply]
  cases c.parent with
  | some parent => rfl
  | none =>
      simp only [requireFree_none, ofExcept_apply, settle_eq]
      cases c.elements.mapM (·.settle t) with
      | error e => rfl
      | ok elements =>
          cases c.columns.mapM (·.settle t) with
          | error e => rfl
          | ok columns =>
              simp only [tell_apply, change_apply, List.append_assoc]
              rfl

namespace Constraint

/-- **Attaching in place** comes to what attaching gives, and to nothing if it fails. -/
theorem setParent_apply (c : Constraint) (t : Table) (told : List Notice) :
    setParent t ⟨c, told⟩ = match c.attach t with
      | .ok (k, notices) => (.ok (), ⟨k, told ++ notices⟩)
      | .error e => (.error e, ⟨c, told⟩) := by
  cases c with
  | check c =>
      simp only [setParent, bind_apply, current_apply, asConstraint,
        CheckConstraint.setParent_apply, attach, parent]
      cases c.parent <;> rfl
  | exclude c =>
      simp only [setParent, bind_apply, current_apply, asConstraint,
        ExcludeConstraint.setParent_apply, attach, parent, settle]
      cases c.parent with
      | some parent => rfl
      | none => cases c.settle t <;> rfl

end Constraint

/-- Appending in place comes to what appending gives, and to nothing if it fails. -/
theorem Table.appendConstraint_apply (c : Constraint) (t : Table) (told : List Notice) :
    appendConstraint c ⟨t, told⟩ = match t.append c with
      | .ok (u, notices) => (.ok (), ⟨u, told ++ notices⟩)
      | .error e => (.error e, ⟨t, told⟩) := by
  simp only [appendConstraint, bind_apply, current_apply, attached, Constraint.setParent_apply,
    append]
  cases c.attach t <;> rfl

/-! ## 2. Names that a constraint waits for -/

namespace Constraint

/-- The names that the elements of the constraint wait for, in order. -/
def pendingNames : Constraint → List String
  | check _ => []
  | exclude c => c.elements.filterMap (·.expression.pendingName?)

/-- Every name that a column of the constraint waits for is one that an element waits for. -/
def NamesCovered : Constraint → Prop
  | check _ => True
  | exclude c => ∀ name, .pending name ∈ c.columns → name ∈ (exclude c).pendingNames

variable {c k : Constraint} {t : Table}

theorem namesCovered_of_build {pairs : List (Argument × String)} {options : ExcludeOptions}
    {c : ExcludeConstraint} (h : ExcludeConstraint.build pairs options = .ok c) :
    (exclude c).NamesCovered := by
  obtain ⟨-, -, members, criterion, hmembers, -, rfl⟩ := ExcludeConstraint.build_eq_ok_iff.mp h
  have hlength : members.length ≤ (pairs.map (·.2)).length := by
    have := (forall₂_of_mapM_eq_ok hmembers).length_eq
    simp only [List.length_map] at *
    omega
  have hnames : (exclude (.ofMembers members (pairs.map (·.2)) options criterion)).pendingNames =
      members.filterMap (·.expression.pendingName?) := by
    show (List.zipWith ExcludeElement.ofMember members (pairs.map (·.2))).filterMap
      (·.expression.pendingName?) = _
    rw [← List.map_uncurry_zip_eq_zipWith, List.filterMap_map]
    conv_rhs => rw [← List.map_fst_zip hlength, List.filterMap_map]
    rfl
  intro name hname
  rw [hnames]
  obtain ⟨m, hm, hentry⟩ := List.mem_filterMap.mp hname
  refine List.mem_filterMap.mpr ⟨m, hm, ?_⟩
  unfold Member.columnEntry? at hentry
  split at hentry
  · rename_i hexpression
    rw [hexpression]
    cases hentry
    rfl
  · obtain ⟨c, -, hc⟩ := Option.map_eq_some_iff.mp hentry
    cases hc

theorem namesCovered_of_resolved (h : c.Resolved) : c.NamesCovered := by
  cases c with
  | check c => trivial
  | exclude c => exact fun name hname => nomatch h.2 _ hname

/-- **What can be made waits in its columns for what its elements wait for.** -/
theorem Built.namesCovered (h : c.Built) : c.NamesCovered := by
  induction h with
  | condition n => trivial
  | named _ name _ => trivial
  | exclusion h => exact namesCovered_of_build h
  | @listen k _ phase listener ih => cases k <;> exact ih
  | attach _ hattach _ => exact namesCovered_of_resolved (attach_spec hattach).2.2
  | @copyTo k c t _ hcopy _ =>
      cases k with
      | check k =>
          obtain ⟨d, -, rfl⟩ := exists_of_map_eq_ok hcopy
          trivial
      | exclude k =>
          obtain ⟨pairs, options, copy, listeners, hbuild, rfl⟩ := exists_build_of_copyTo hcopy
          have hcovered := namesCovered_of_build hbuild
          exact hcovered

end Constraint

/-! ## 3. What a table lacks -/

/-- The table has no column of the name. -/
def Table.lacks (t : Table) (name : String) : Bool := (t.column? name).isNone

theorem Table.expr?_eq_none_iff {t : Table} {name : String} :
    t.expr? name = none ↔ t.lacks name = true := by
  rw [expr?, Option.map_eq_none_iff, lacks, Option.isNone_iff_eq_none]

theorem Table.failure?_require (t : Table) (name : String) :
    failure? (t.require name) =
      if t.lacks name = true then some (.columnNotFound t.name name) else none := by
  unfold require
  by_cases h : t.lacks name = true
  · rw [expr?_eq_none_iff.mpr h, if_pos h]
    rfl
  · obtain ⟨n, hn⟩ := Option.ne_none_iff_exists'.mp (expr?_eq_none_iff.not.mpr h)
    rw [hn, if_neg h]
    rfl

namespace Entry

/-- Entries cannot be settled because of the first name that the table lacks. -/
theorem failure?_mapM_settle (t : Table) : ∀ es : List Entry,
    failure? (es.mapM (·.settle t)) =
      ((es.filterMap pendingName?).find? t.lacks).map (.columnNotFound t.name)
  | [] => rfl
  | resolved n :: es => by
      have ih := failure?_mapM_settle t es
      rw [failure?_mapM] at ih
      rw [failure?_mapM, List.findSome?_cons, ih]
      rfl
  | pending name :: es => by
      have ih := failure?_mapM_settle t es
      rw [failure?_mapM] at ih
      have hentry : failure? ((pending name).settle t) = failure? (t.require name) :=
        failure?_bindPure Entry.resolved _
      have hnames : (pending name :: es).filterMap pendingName? =
          name :: es.filterMap pendingName? := rfl
      rw [failure?_mapM, List.findSome?_cons, ih, hentry, t.failure?_require, hnames,
        List.find?_cons]
      by_cases h : t.lacks name = true
      · rw [if_pos h, h]
        rfl
      · rw [if_neg h, Bool.eq_false_iff.mpr h]

end Entry

theorem ExcludeElement.failure?_mapM_settle (t : Table) (es : List ExcludeElement) :
    failure? (es.mapM (·.settle t)) =
      ((es.filterMap (·.expression.pendingName?)).find? t.lacks).map (.columnNotFound t.name) := by
  have hentries := Entry.failure?_mapM_settle t (es.map (·.expression))
  rw [failure?_mapM, List.findSome?_map, List.filterMap_map] at hentries
  rw [failure?_mapM]
  simp only [settle, failure?_bindPure]
  exact hentries

namespace Constraint

variable {t : Table}

/-- A table that has all names that the elements wait for has those that the columns wait for. -/
theorem NamesCovered.find?_columns {c : ExcludeConstraint} (h : (exclude c).NamesCovered)
    (hnames : (exclude c).pendingNames.find? t.lacks = none) :
    (c.columns.filterMap Entry.pendingName?).find? t.lacks = none := by
  rw [List.find?_eq_none] at hnames ⊢
  intro name hname
  obtain ⟨e, he, hpending⟩ := List.mem_filterMap.mp hname
  cases e with
  | resolved n => cases hpending
  | pending name' =>
      obtain rfl := Option.some.inj hpending
      exact hnames name' (h name' he)

/-- **A constraint cannot be settled because of the first name that an element waits for and that
the table lacks.** -/
theorem failure?_settle {c : Constraint} (h : c.NamesCovered) (t : Table) :
    failure? (c.settle t) = (c.pendingNames.find? t.lacks).map (.columnNotFound t.name) := by
  cases c with
  | check c => rfl
  | exclude c =>
      have helements : failure? (c.elements.mapM (·.settle t)) =
          ((exclude c).pendingNames.find? t.lacks).map (.columnNotFound t.name) :=
        ExcludeElement.failure?_mapM_settle t c.elements
      show failure? (exclude <$> c.settle t) = _
      rw [c.settle_eq]
      cases hes : c.elements.mapM (·.settle t) with
      | error e =>
          rw [hes] at helements
          exact helements
      | ok elements =>
          rw [hes] at helements
          -- the table has all names, so the columns wait for nothing that it lacks
          have hcolumns := Entry.failure?_mapM_settle t c.columns
          rw [h.find?_columns (Option.map_eq_none_iff.mp helements.symm)] at hcolumns
          obtain ⟨columns, hcs⟩ := failure?_eq_none_iff.mp hcolumns
          rw [hcs]
          exact helements

end Constraint

/-! ## 4. What becomes of a constraint that is taken -/

/-- The second entry is the first one, resolved: a name gives way to the column of the table, and an
expression stays and is equal to what it was, unless there is a NaN in it. -/
inductive Entry.Settles (t : Table) : Entry → Entry → Prop where
  | pending {name : String} {n : Node} (h : t.expr? name = some n) :
      Settles t (.pending name) (.resolved n)
  | resolved {n : Node} (h : (∀ v ∈ n.values, v.isNaN = false) → n.agrees n = true) :
      Settles t (.resolved n) (.resolved n)

theorem Entry.settles_of_settle {t : Table} {e e' : Entry} (h : e.settle t = .ok e') :
    e.Settles t e' := by
  obtain ⟨n, hn, rfl⟩ := exists_of_map_eq_ok h
  cases e with
  | pending name => exact .pending (Table.require_eq_ok_iff.mp hn)
  | resolved n' =>
      obtain rfl := Except.ok.inj hn
      exact .resolved (Node.agrees_self_iff n').mpr

/-- The second constraint is the first one as a constraint of the table: its entries are settled,
and nothing else is changed. -/
inductive Constraint.Settles (t : Table) : Constraint → Constraint → Prop where
  | check (c : CheckConstraint) : Settles t (.check c) (.check { c with parent := some t.relation })
  | exclude {c : ExcludeConstraint} {elements : List ExcludeElement} {columns : List Entry}
      (helements : List.Forall₂ (fun e e' : ExcludeElement => e.expression.Settles t e'.expression ∧
        e'.name = e.name ∧ e'.operator = e.operator) c.elements elements)
      (hcolumns : List.Forall₂ (Entry.Settles t) c.columns columns) :
      Settles t (.exclude c) (.exclude { c with elements, columns, parent := some t.relation })

/-- **What becomes of a constraint that is taken.** -/
theorem Constraint.settles_of_settle {c k : Constraint} {t : Table} (h : c.settle t = .ok k) :
    c.Settles t k := by
  cases c with
  | check c =>
      obtain rfl := Except.ok.inj h
      exact .check c
  | exclude c =>
      obtain ⟨d, hd, rfl⟩ := exists_of_map_eq_ok h
      obtain ⟨elements, helements, hd⟩ := exists_of_bind_eq_ok hd
      obtain ⟨columns, hcolumns, hd⟩ := exists_of_bind_eq_ok hd
      obtain rfl := Except.ok.inj hd
      refine .exclude ?_ ?_
      · refine (forall₂_of_mapM_eq_ok helements).imp fun e e' he => ?_
        obtain ⟨x, hx, he⟩ := exists_of_bind_eq_ok he
        obtain rfl := Except.ok.inj he
        exact ⟨Entry.settles_of_settle hx, rfl, rfl⟩
      · exact (forall₂_of_mapM_eq_ok hcolumns).imp fun e e' he => Entry.settles_of_settle he

/-- A settled exclusion is the exclusion with its entries settled. -/
theorem ExcludeConstraint.exists_of_settle {c k : ExcludeConstraint} {t : Table}
    (h : c.settle t = .ok k) : ∃ elements columns,
      List.Forall₂ (fun e e' : ExcludeElement => e.expression.Settles t e'.expression ∧
        e'.name = e.name ∧ e'.operator = e.operator) c.elements elements ∧
      List.Forall₂ (Entry.Settles t) c.columns columns ∧
      k = { c with elements, columns, parent := some t.relation } := by
  have hsettle : (Constraint.exclude c).settle t = .ok (.exclude k) :=
    congrArg (Constraint.exclude <$> ·) h
  cases Constraint.settles_of_settle hsettle with
  | exclude helements hcolumns => exact ⟨_, _, helements, hcolumns, rfl⟩

/-- An exclusion that can be settled is attached, and settled then. -/
theorem ExcludeConstraint.setParent_of_settle {c k : ExcludeConstraint} {t : Table}
    (hparent : c.parent = none) (h : c.settle t = .ok k) (told : List Notice) :
    (setParent t ⟨c, told⟩).1 = .ok () ∧ (setParent t ⟨c, told⟩).2.value = k := by
  rw [setParent_apply, hparent, h]
  exact ⟨rfl, rfl⟩

/-- An exclusion is as it was after an attempt that fails, and else it had no table and is
settled. -/
theorem ExcludeConstraint.setParent_cases (c : ExcludeConstraint) (t : Table)
    (told : List Notice) :
    (∃ e, (setParent t ⟨c, told⟩).1 = .error e ∧ (setParent t ⟨c, told⟩).2.value = c) ∨
      (setParent t ⟨c, told⟩).1 = .ok () ∧ c.parent = none ∧
        c.settle t = .ok (setParent t ⟨c, told⟩).2.value := by
  rw [setParent_apply]
  cases c.parent with
  | some parent => exact .inl ⟨_, rfl, rfl⟩
  | none =>
      cases hsettle : c.settle t with
      | ok k => exact .inr ⟨rfl, rfl, rfl⟩
      | error e => exact .inl ⟨e, rfl, rfl⟩

/-- What is attached had no table, and is settled then. -/
theorem ExcludeConstraint.settle_of_setParent {c : ExcludeConstraint} {t : Table}
    {told : List Notice} (h : (setParent t ⟨c, told⟩).1 = .ok ()) :
    c.parent = none ∧ c.settle t = .ok (setParent t ⟨c, told⟩).2.value := by
  rcases setParent_cases c t told with ⟨e, herror, -⟩ | ⟨-, hsettle⟩
  · rw [h] at herror
    cases herror
  · exact hsettle

/-! ## 5. Attempts -/

namespace Held

open Constraint

/-- The outcomes of attempts with one table after the other. -/
def attempts : Held Constraint → List Table → List (Except Error Unit)
  | _, [] => []
  | h, t :: ts => (setParent t h).1 :: attempts (setParent t h).2 ts

/-- What is held after these attempts. -/
def after : Held Constraint → List Table → Held Constraint
  | h, [] => h
  | h, t :: ts => after (setParent t h).2 ts

variable {h : Held Constraint} {t : Table}

/-- An attempt that fails leaves everything as it was. -/
theorem setParent_of_error {e : Error} (herror : (setParent t h).1 = .error e) :
    (setParent t h).2 = h := by
  obtain ⟨c, told⟩ := h
  rw [setParent_apply] at herror ⊢
  cases hattach : c.attach t with
  | error e => rfl
  | ok result =>
      rw [hattach] at herror
      cases herror

/-- A constraint that is attached is not attached again. -/
theorem setParent_of_parent {parent : Relation} (hparent : h.value.parent = some parent) :
    setParent t h = (.error (.alreadyAttached parent.name), h) := by
  obtain ⟨c, told⟩ := h
  rw [setParent_apply, attach_of_parent hparent]

/-- An attempt that succeeds settles the constraint and tells all listeners. -/
theorem setParent_of_ok (hok : (setParent t h).1 = .ok ()) :
    h.value.parent = none ∧ h.value.settle t = .ok (setParent t h).2.value ∧
      (setParent t h).2.told = h.told ++ (h.value.listeners.before.map (⟨.before, ·, h.value, t⟩) ++
        h.value.listeners.after.map (⟨.after, ·, (setParent t h).2.value, t⟩)) := by
  obtain ⟨c, told⟩ := h
  rw [setParent_apply] at hok ⊢
  cases hattach : c.attach t with
  | error e =>
      rw [hattach] at hok
      cases hok
  | ok result =>
      obtain ⟨k, notices⟩ := result
      obtain ⟨hparent, hsettle⟩ := settle_of_attach hattach
      refine ⟨hparent, hsettle, ?_⟩
      rw [attach, hparent] at hattach
      simp only [hsettle] at hattach
      obtain ⟨-, rfl⟩ := Prod.mk.inj (Except.ok.inj hattach)
      rfl

theorem attempts_of_parent {parent : Relation} (hparent : h.value.parent = some parent) :
    ∀ ts, (∀ o ∈ h.attempts ts, o = .error (.alreadyAttached parent.name)) ∧ h.after ts = h
  | [] => ⟨nofun, rfl⟩
  | t :: ts => by
      obtain ⟨hlater, hafter⟩ := attempts_of_parent hparent ts
      rw [attempts, after, setParent_of_parent hparent]
      exact ⟨List.forall_mem_cons.mpr ⟨rfl, hlater⟩, hafter⟩

/-- **What any attempts come to**: they all fail, and nothing has changed, or one table has taken
the constraint, and no other has. -/
theorem attempts_cases : ∀ {h : Held Constraint} (ts : List Table), h.value.parent = none →
    ((∀ o ∈ h.attempts ts, o.isOk = false) ∧ h.after ts = h) ∨
    ∃ u, (h.after ts).value.parent = some u.relation ∧
      (h.attempts ts).countP Except.isOk = 1 ∧
      ∀ v, (v, Except.ok ()) ∈ ts.zip (h.attempts ts) ↔ v = u
  | h, [], _ => .inl ⟨nofun, rfl⟩
  | h, t :: ts, hfree => by
      rw [attempts, after]
      cases hfirst : (setParent t h).1 with
      | error e =>
          -- nothing has changed, so everything depends on the attempts that follow
          rw [setParent_of_error hfirst]
          rcases attempts_cases ts hfree with ⟨hall, hafter⟩ | ⟨u, hparent, hcount, hu⟩
          · exact .inl ⟨List.forall_mem_cons.mpr ⟨rfl, hall⟩, hafter⟩
          · refine .inr ⟨u, hparent, ?_, fun v => ?_⟩
            · rw [List.countP_cons_of_neg Bool.false_ne_true, hcount]
            · rw [List.zip_cons_cons, List.mem_cons, ← hu v]
              exact or_iff_right fun heq => nomatch (Prod.mk.inj heq).2
      | ok =>
          -- the constraint is attached, so every attempt that follows fails
          obtain ⟨-, hsettle, -⟩ := setParent_of_ok hfirst
          have hparent := (settle_spec hsettle).1
          obtain ⟨hlater, hafter⟩ := attempts_of_parent hparent ts
          have hnone : ∀ o ∈ (setParent t h).2.attempts ts, ¬ o.isOk = true := by
            intro o ho
            rw [hlater o ho]
            exact Bool.false_ne_true
          refine .inr ⟨t, by rw [hafter, hparent], ?_, fun v => ?_⟩
          · rw [List.countP_cons_of_pos rfl, List.countP_eq_zero.mpr hnone]
          · rw [List.zip_cons_cons, List.mem_cons, Prod.mk.injEq]
            constructor
            · rintro (⟨rfl, -⟩ | hv)
              · rfl
              · exact absurd rfl (hnone _ (List.of_mem_zip hv).2)
            · rintro rfl
              exact .inl ⟨rfl, rfl⟩

/-- Attempts that all fail leave everything as it was. -/
theorem after_of_failures {ts : List Table} (hfree : h.value.parent = none)
    (hall : ∀ o ∈ h.attempts ts, o.isOk = false) : h.after ts = h := by
  rcases attempts_cases ts hfree with ⟨-, hafter⟩ | ⟨u, -, hcount, -⟩
  · exact hafter
  · rw [List.countP_eq_zero.mpr fun o ho => Bool.eq_false_iff.mp (hall o ho)] at hcount
    cases hcount

/-- A constraint without a parent is as it was before all attempts. -/
theorem after_of_free {ts : List Table} (hfree : h.value.parent = none)
    (hafter : (h.after ts).value.parent = none) : h.after ts = h := by
  rcases attempts_cases ts hfree with ⟨-, hsame⟩ | ⟨u, hparent, -, -⟩
  · exact hsame
  · exact nomatch hafter.symm.trans hparent

theorem attempts_append : ∀ (h : Held Constraint) (ts : List Table) (t : Table),
    h.attempts (ts ++ [t]) = h.attempts ts ++ [(setParent t (h.after ts)).1]
  | _, [], _ => rfl
  | h, u :: ts, t => congrArg ((setParent u h).1 :: ·) (attempts_append (setParent u h).2 ts t)

/-- At most one attempt succeeds. -/
theorem countP_attempts_le (ts : List Table) (hfree : h.value.parent = none) :
    (h.attempts ts).countP Except.isOk ≤ 1 := by
  rcases attempts_cases ts hfree with ⟨hall, -⟩ | ⟨u, -, hcount, -⟩
  · rw [List.countP_eq_zero.mpr fun o ho => Bool.eq_false_iff.mp (hall o ho)]
    exact Nat.zero_le 1
  · exact Nat.le_of_eq hcount

/-- A table to which a constraint cannot be attached is left as it was. -/
theorem appendConstraint_of_error {e : Error} (herror : (setParent t h).1 = .error e) :
    Table.appendConstraint h.value ⟨t, h.told⟩ = (.error e, ⟨t, h.told⟩) := by
  have hpair : setParent t h = (.error e, h) := Prod.ext herror (setParent_of_error herror)
  obtain ⟨c, told⟩ := h
  simp only [Table.appendConstraint, bind_apply, current_apply, Table.attached, hpair]
  rfl

/-- A table to which a constraint is attached has it at the end of its list. -/
theorem appendConstraint_of_ok (hok : (setParent t h).1 = .ok ()) :
    Table.appendConstraint h.value ⟨t, h.told⟩ =
      (.ok (), ⟨{ t with constraints := t.constraints ++ [(setParent t h).2.value] },
        (setParent t h).2.told⟩) := by
  have hpair : setParent t h = (.ok (), (setParent t h).2) := Prod.ext hok rfl
  obtain ⟨c, told⟩ := h
  simp only [Table.appendConstraint, bind_apply, current_apply, Table.attached]
  rw [hpair]
  rfl

end Held

namespace Constraint

variable {c : Constraint} {t : Table}

/-- What comes of an attempt with a constraint that has no parent. -/
theorem failure?_setParent (hcovered : c.NamesCovered) (hfree : c.parent = none) (t : Table)
    (told : List Notice) :
    failure? (setParent t ⟨c, told⟩).1 =
      (c.pendingNames.find? t.lacks).map (.columnNotFound t.name) := by
  rw [← failure?_settle hcovered, setParent_apply, attach, hfree]
  cases c.settle t <;> rfl

/-- **An attempt fails because the constraint is attached if and only if an earlier one has
succeeded**, and names the table of that one. -/
theorem eq_alreadyAttached_iff (hcovered : c.NamesCovered) (hfree : c.parent = none)
    (told : List Notice) (earlier : List Table) (t : Table) (name : String) :
    (setParent t ((Held.mk c told).after earlier)).1 = .error (.alreadyAttached name) ↔
      ∃ u, (u, .ok ()) ∈ earlier.zip ((Held.mk c told).attempts earlier) ∧ name = u.name := by
  rcases Held.attempts_cases (h := ⟨c, told⟩) earlier hfree with
    ⟨hall, hafter⟩ | ⟨u, hparent, -, hu⟩
  · rw [hafter]
    constructor
    · intro hattached
      have hfails := failure?_setParent hcovered hfree t told
      rw [hattached] at hfails
      obtain ⟨_, -, hother⟩ := Option.map_eq_some_iff.mp hfails.symm
      cases hother
    · rintro ⟨u, hmem, -⟩
      exact nomatch hall _ (List.of_mem_zip hmem).2
  · rw [Held.setParent_of_parent hparent]
    constructor
    · intro heq
      exact ⟨u, (hu u).mpr rfl, (Error.alreadyAttached.inj (Except.error.inj heq)).symm⟩
    · rintro ⟨v, hv, rfl⟩
      rw [(hu v).mp hv]
      rfl

/-- **The life of a constraint.** A constraint that has been made and has no parent is offered to
any tables, and then to one more.

At most one attempt succeeds. The last one fails because the constraint is attached if and only if
an earlier one has succeeded, and the error names the table of that one. If none has, a condition
is taken, and an exclusion is taken unless the table lacks a name that an element waits for; the
error names the first of these. An attempt that fails leaves the constraint as it was and tells no
listener. One that succeeds is the first that does: what was made is settled, belongs to the table,
and the listeners are told of it. A table that is to be given the constraint has it at the end of
its list then, and is as it was otherwise. -/
theorem attachment_lifecycle (hbuilt : c.Built) (hfresh : c.parent = none) (told : List Notice)
    (earlier : List Table) (t : Table) :
    let before := (Held.mk c told).after earlier
    let outcomes := (Held.mk c told).attempts earlier
    let outcome := (setParent t before).1
    let after := (setParent t before).2
    (outcomes ++ [outcome]).countP Except.isOk ≤ 1 ∧
    (∀ name, outcome = .error (.alreadyAttached name) ↔
      ∃ u, (u, .ok ()) ∈ earlier.zip outcomes ∧ name = u.name) ∧
    ((∀ o ∈ outcomes, o.isOk = false) →
      (c.isCheck = true → outcome = .ok ()) ∧
      (outcome = .ok () ↔ c.pendingNames.find? t.lacks = none) ∧
      ∀ e, outcome = .error e ↔
        ∃ name, c.pendingNames.find? t.lacks = some name ∧ e = .columnNotFound t.name name) ∧
    (∀ e, outcome = .error e → after = before ∧
      Table.appendConstraint before.value ⟨t, before.told⟩ = (.error e, ⟨t, before.told⟩)) ∧
    (outcome = .ok () → before = ⟨c, told⟩ ∧ c.Settles t after.value ∧
      after.value.parent = some t.relation ∧
      after.told = told ++ (c.listeners.before.map (⟨.before, ·, c, t⟩) ++
        c.listeners.after.map (⟨.after, ·, after.value, t⟩)) ∧
      Table.appendConstraint before.value ⟨t, before.told⟩ =
        (.ok (), ⟨{ t with constraints := t.constraints ++ [after.value] }, after.told⟩)) := by
  intro before outcomes outcome after
  have hcovered := hbuilt.namesCovered
  refine ⟨?_, eq_alreadyAttached_iff hcovered hfresh told earlier t, ?_, ?_, ?_⟩
  · have hcount : ((Held.mk c told).attempts (earlier ++ [t])).countP Except.isOk ≤ 1 :=
      Held.countP_attempts_le _ hfresh
    rwa [Held.attempts_append] at hcount
  · intro hall
    have hbefore : before = ⟨c, told⟩ := Held.after_of_failures hfresh hall
    have hfails : failure? outcome =
        (c.pendingNames.find? t.lacks).map (.columnNotFound t.name) := by
      show failure? (setParent t before).1 = _
      rw [hbefore, failure?_setParent hcovered hfresh]
    have hok : outcome = .ok () ↔ c.pendingNames.find? t.lacks = none := by
      rw [← Option.map_eq_none_iff, ← hfails, failure?_eq_none_iff]
      exact ⟨fun h => ⟨(), h⟩, fun ⟨(), h⟩ => h⟩
    refine ⟨fun hcheck => hok.mpr ?_, hok, fun e => ?_⟩
    · cases c with
      | check c => rfl
      | exclude c => cases hcheck
    · rw [← failure?_eq_some_iff, hfails, Option.map_eq_some_iff]
      simp only [eq_comm]
  · intro e herror
    exact ⟨Held.setParent_of_error herror, Held.appendConstraint_of_error herror⟩
  · intro hok
    have happend := Held.appendConstraint_of_ok hok
    obtain ⟨hfree, hsettle, htold⟩ := Held.setParent_of_ok hok
    have hbefore : before = ⟨c, told⟩ := Held.after_of_free hfresh hfree
    have hvalue : before.value = c := congrArg Held.value hbefore
    have hearlier : before.told = told := congrArg Held.told hbefore
    rw [hvalue] at hsettle
    rw [hvalue, hearlier] at htold
    exact ⟨hbefore, settles_of_settle hsettle, (settle_spec hsettle).1, htold, happend⟩

end Constraint

namespace Table

/-- A table without columns. -/
def lobby : Table := ofName "lobby"

/-- A table with a column for rooms. -/
def stays : Table := (ofName "stays").addColumn (.ofType "room" .integer)

end Table

namespace Constraint

open Table (lobby stays noOverlap)

/-- The exclusion of bookings is offered to a table that lacks a column, to one that has it, and to
the first one again. -/
theorem attachment_lifecycle_noOverlap :
    (exclude noOverlap).Built ∧ (exclude noOverlap).parent = none ∧
      (Held.mk (exclude noOverlap) []).attempts [lobby, stays, lobby] =
        [.error (.columnNotFound "lobby" "room"), .ok (), .error (.alreadyAttached "stays")] := by
  have hbuilt := Table.built_noOverlap
  obtain ⟨-, -, hfirst, -⟩ := attachment_lifecycle hbuilt rfl [] [] lobby
  obtain ⟨-, -, hsecond, -⟩ := attachment_lifecycle hbuilt rfl [] [lobby] stays
  obtain ⟨-, hthird, -⟩ := attachment_lifecycle hbuilt rfl [] [lobby, stays] lobby
  have hlacks := ((hfirst nofun).2.2 _).mpr ⟨"room", rfl, rfl⟩
  have hrejected : (Held.mk (exclude noOverlap) []).attempts [lobby] =
      [.error (.columnNotFound "lobby" "room")] := congrArg (· :: []) hlacks
  have htaken := (hsecond (by rw [hrejected]; exact List.forall_mem_singleton.mpr rfl)).2.1.mpr rfl
  have hattempts : (Held.mk (exclude noOverlap) []).attempts [lobby, stays] =
      [.error (.columnNotFound "lobby" "room"), .ok ()] := by
    have happend := Held.attempts_append (.mk (exclude noOverlap) []) [lobby] stays
    rw [hrejected, htaken] at happend
    exact happend
  have hagain := (hthird "stays").mpr ⟨stays, by rw [hattempts]; simp, rfl⟩
  have happend := Held.attempts_append (.mk (exclude noOverlap) []) [lobby, stays] lobby
  rw [hattempts, hagain] at happend
  exact ⟨hbuilt, rfl, happend⟩

end Constraint

end SqlClause
