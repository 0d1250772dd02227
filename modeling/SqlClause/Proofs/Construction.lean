import SqlClause.Proofs.Ownership

/-!
# Constraints and tables that can be made

A constraint is made of a condition or built as an exclusion, can then be named, listened to,
attached and copied, and a table is made by giving it columns and constraints and by copying it.
Whatever is made in these ways can be made again: an exclusion has elements, a valid index method,
and expressions that can play their roles.

* `ExcludeConstraint.build_eq_ok_iff`: when an exclusion can be built, and what it is then;
* `Constraint.Built`, `Table.Reachable`: what can be made;
* `Constraint.Built.buildable`: what can be made can be built again;
* `Table.Reachable.exists_attached`: what a table that can be made has could be made;
* **`Table.Reachable.sound`**: what is known of the constraints of a table that can be made.
-/

namespace SqlClause

/-! ## 1. Building exclusions -/

/-- The member that an entry is as an item of a constraint's list. -/
def Entry.member : Entry → Member
  | pending name => .ofName name
  | resolved n => .ofNode n

/-- The argument from which the entry is read. -/
def Entry.argument : Entry → Argument
  | pending name => .value (.text name)
  | resolved n => .element n

namespace ExcludeConstraint

/-- The exclusion of members that have been read, with their operators. -/
def ofMembers (members : List Member) (operators : List String) (options : ExcludeOptions)
    (criterion : Option Node) : ExcludeConstraint :=
  let elements := List.zipWith ExcludeElement.ofMember members operators
  { elements
    columns := members.filterMap Member.columnEntry?
    operators := .ofList (elements.filterMap ExcludeElement.operatorEntry?)
    name := options.name
    deferrable := options.deferrable
    initially := options.initially
    method := options.method.getD "gist"
    criterion
    classes := options.classes
    parent := none
    listeners := .none }

/-- **When an exclusion can be built**, and what it is then. -/
theorem build_eq_ok_iff {pairs : List (Argument × String)} {options : ExcludeOptions}
    {c : ExcludeConstraint} :
    build pairs options = .ok c ↔
      pairs ≠ [] ∧ isIndexMethod (options.method.getD "gist") = true ∧
        ∃ members criterion, readMembers .ddl (pairs.map (·.1)) = .ok members ∧
          options.criterion.mapM (coerce .option) = .ok criterion ∧
          c = ofMembers members (pairs.map (·.2)) options criterion := by
  unfold build
  cases pairs with
  | nil =>
      constructor
      · intro h
        cases h
      · rintro ⟨hne, -⟩
        exact absurd rfl hne
  | cons pair pairs =>
      cases hmethod : isIndexMethod (options.method.getD "gist") with
      | false =>
          constructor
          · intro h
            simp only [hmethod] at h
            cases h
          · rintro ⟨-, hvalid, -⟩
            cases hvalid
      | true =>
          constructor
          · intro h
            simp only [hmethod] at h
            obtain ⟨members, hmembers, h⟩ := exists_of_bind_eq_ok h
            obtain ⟨criterion, hcriterion, h⟩ := exists_of_bind_eq_ok h
            exact ⟨List.cons_ne_nil _ _, rfl, members, criterion, hmembers, hcriterion,
              (Except.ok.inj h).symm⟩
          · rintro ⟨-, -, members, criterion, hmembers, hcriterion, rfl⟩
            simp only [hmethod, hmembers, hcriterion]
            rfl

/-! ## 2. Exclusions that can be built again -/

/-- The exclusion can be built from its own entries. -/
structure Buildable (c : ExcludeConstraint) : Prop where
  nonempty : c.elements ≠ []
  method : isIndexMethod c.method = true
  elements : ∀ e ∈ c.elements, ∀ n ∈ e.expression.node?, Role.ddl.accepts n = true
  criterion : ∀ n ∈ c.criterion, Role.option.accepts n = true

end ExcludeConstraint

theorem accepts_of_coerce_option {a : Argument} {n : Node} (h : coerce .option a = .ok n) :
    Role.option.accepts n = true := by
  cases a with
  | element m =>
      obtain ⟨haccepts, rfl⟩ := coerce_element_eq_ok_iff.mp h
      exact haccepts
  | value v =>
      cases v with
      | text s =>
          obtain rfl := Except.ok.inj h
          rfl
      | _ => cases h

theorem accepts_of_readMember {a : Argument} {m : Member} (h : readMember .ddl a = .ok m) :
    ∀ n ∈ m.expression.node?, Role.ddl.accepts n = true := by
  intro n hn
  cases a with
  | element n' =>
      obtain ⟨n'', hcoerce, rfl⟩ := exists_of_map_eq_ok h
      obtain ⟨haccepts, rfl⟩ := coerce_element_eq_ok_iff.mp hcoerce
      obtain rfl := Option.some.inj hn
      exact haccepts
  | value v =>
      cases v with
      | text s =>
          obtain rfl := Except.ok.inj h
          cases hn
      | _ => cases h

namespace ExcludeConstraint

theorem buildable_of_build {pairs : List (Argument × String)} {options : ExcludeOptions}
    {c : ExcludeConstraint} (h : build pairs options = .ok c) : c.Buildable := by
  obtain ⟨hpairs, hmethod, members, criterion, hmembers, hcriterion, rfl⟩ := build_eq_ok_iff.mp h
  have hread := forall₂_of_mapM_eq_ok hmembers
  refine ⟨?_, hmethod, ?_, ?_⟩
  · cases pairs with
    | nil => exact absurd rfl hpairs
    | cons pair pairs =>
        cases hread with
        | cons => exact List.cons_ne_nil _ _
  · intro e he n hn
    have he : e ∈ List.zipWith ExcludeElement.ofMember members (pairs.map (·.2)) := he
    rw [← List.map_uncurry_zip_eq_zipWith] at he
    obtain ⟨⟨m, operator⟩, hm, rfl⟩ := List.mem_map.mp he
    obtain ⟨a, -, ha⟩ := exists_of_mem_right hread (List.of_mem_zip hm).1
    exact accepts_of_readMember ha n hn
  · intro n hn
    obtain rfl : criterion = some n := hn
    cases hgiven : options.criterion with
    | none =>
        rw [hgiven] at hcriterion
        cases hcriterion
    | some a =>
        rw [hgiven, Option.mapM_some] at hcriterion
        obtain ⟨n', hn', heq⟩ := exists_of_map_eq_ok hcriterion
        obtain rfl := Option.some.inj heq
        exact accepts_of_coerce_option hn'

end ExcludeConstraint

namespace Constraint

/-- An exclusion can be built from its own entries; nothing is asked of a condition. -/
def Buildable : Constraint → Prop
  | check _ => True
  | exclude c => c.Buildable

variable {c k : Constraint} {t : Table} {notices : List Notice}

theorem buildable_listen (h : k.Buildable) (phase : Phase) (listener : String) :
    (k.listen phase listener).Buildable := by
  cases k with
  | check c => trivial
  | exclude c => exact ⟨h.nonempty, h.method, h.elements, h.criterion⟩

/-- A settled entry is the expression that the entry was, or a column of the table. -/
theorem accepts_of_settle {e e' : Entry} (h : e.settle t = .ok e')
    (haccepts : ∀ n ∈ e.node?, Role.ddl.accepts n = true) :
    ∀ n ∈ e'.node?, Role.ddl.accepts n = true := by
  obtain ⟨n, hn, rfl⟩ := exists_of_map_eq_ok h
  intro m hm
  obtain rfl := Option.some.inj hm
  cases e with
  | resolved n' =>
      obtain rfl := Except.ok.inj hn
      exact haccepts n' rfl
  | pending name =>
      obtain ⟨column, -, rfl⟩ := Option.map_eq_some_iff.mp (Table.require_eq_ok_iff.mp hn)
      rfl

theorem buildable_of_attach (h : k.attach t = .ok (c, notices)) (hk : k.Buildable) :
    c.Buildable := by
  obtain ⟨-, hsettle⟩ := settle_of_attach h
  cases k with
  | check k =>
      obtain rfl := Except.ok.inj hsettle
      trivial
  | exclude k =>
      obtain ⟨d, hd, rfl⟩ := exists_of_map_eq_ok hsettle
      obtain ⟨elements, helements, hd⟩ := exists_of_bind_eq_ok hd
      obtain ⟨columns, -, hd⟩ := exists_of_bind_eq_ok hd
      obtain rfl := Except.ok.inj hd
      have hsettled := forall₂_of_mapM_eq_ok helements
      refine ⟨?_, hk.method, fun e he => ?_, hk.criterion⟩
      · intro hnil
        exact hk.nonempty
          (List.eq_nil_of_length_eq_zero (hsettled.length_eq.trans (congrArg List.length hnil)))
      · obtain ⟨e₀, he₀, hstep⟩ := exists_of_mem_right hsettled he
        obtain ⟨x, hx, hstep⟩ := exists_of_bind_eq_ok hstep
        obtain rfl := Except.ok.inj hstep
        exact accepts_of_settle hx (hk.elements e₀ he₀)

/-- A copy of an exclusion is built, and then takes over the listeners. -/
theorem exists_build_of_copyTo {k : ExcludeConstraint} (h : (exclude k).copyTo t = .ok c) :
    ∃ pairs options copy listeners, ExcludeConstraint.build pairs options = .ok copy ∧
      c = exclude { copy with listeners } := by
  obtain ⟨d, hd, rfl⟩ := exists_of_map_eq_ok h
  obtain ⟨pairs, -, hd⟩ := exists_of_bind_eq_ok hd
  obtain ⟨criterion, -, hd⟩ := exists_of_bind_eq_ok hd
  obtain ⟨copy, hcopy, hd⟩ := exists_of_bind_eq_ok hd
  obtain rfl := Except.ok.inj hd
  exact ⟨pairs, _, copy, _, hcopy, rfl⟩

theorem buildable_of_copyTo (h : k.copyTo t = .ok c) : c.Buildable := by
  cases k with
  | check k =>
      obtain ⟨d, -, rfl⟩ := exists_of_map_eq_ok h
      trivial
  | exclude k =>
      obtain ⟨pairs, options, copy, listeners, hcopy, rfl⟩ := exists_build_of_copyTo h
      have hbuildable := ExcludeConstraint.buildable_of_build hcopy
      exact ⟨hbuildable.nonempty, hbuildable.method, hbuildable.elements, hbuildable.criterion⟩

/-! ## 3. Constraints that can be made -/

/-- The constraint can be made: it is a condition or an exclusion, or it comes from another
constraint that can be made. -/
inductive Built : Constraint → Prop where
  | condition (n : Node) : Built (check (.ofCondition n))
  | named {c : CheckConstraint} (h : Built (check c)) (name : String) : Built (check (c.named name))
  | exclusion {pairs : List (Argument × String)} {options : ExcludeOptions} {c : ExcludeConstraint}
      (h : ExcludeConstraint.build pairs options = .ok c) : Built (exclude c)
  | listen {k : Constraint} (h : Built k) (phase : Phase) (listener : String) :
      Built (k.listen phase listener)
  | attach {k c : Constraint} {t : Table} {notices : List Notice} (h : Built k)
      (hattach : k.attach t = .ok (c, notices)) : Built c
  | copyTo {k c : Constraint} {t : Table} (h : Built k) (hcopy : k.copyTo t = .ok c) : Built c

theorem Built.buildable (h : k.Built) : k.Buildable := by
  induction h with
  | condition n => trivial
  | named _ name _ => trivial
  | exclusion h => exact ExcludeConstraint.buildable_of_build h
  | listen _ phase listener ih => exact buildable_listen ih phase listener
  | attach _ hattach ih => exact buildable_of_attach hattach ih
  | copyTo _ hcopy _ => exact buildable_of_copyTo hcopy

/-- What is known of a constraint of a table: it has a parent, nothing in it is pending, and it can
be built again. -/
structure Sound (k : Constraint) : Prop where
  attached : ∃ home, k.parent = some home
  resolved : k.Resolved
  buildable : k.Buildable

theorem sound_of_attach (h : k.attach t = .ok (c, notices)) (hk : k.Buildable) : c.Sound := by
  obtain ⟨-, hparent, hresolved⟩ := attach_spec h
  exact ⟨⟨t.relation, hparent⟩, hresolved, buildable_of_attach h hk⟩

end Constraint

/-! ## 4. Tables that can be made -/

namespace Table

/-- The table can be made: it is new, or it comes from another table that can be made. -/
inductive Reachable : Table → Prop where
  | ofName (name : String) : Reachable (.ofName name)
  | withSchema {t : Table} (h : Reachable t) (schema : String) : Reachable (t.withSchema schema)
  | addColumn {t : Table} (h : Reachable t) (c : Column) : Reachable (t.addColumn c)
  | append {t u : Table} {c : Constraint} {notices : List Notice} (h : Reachable t) (hc : c.Built)
      (hu : t.append c = .ok (u, notices)) : Reachable u
  | copyAs {t u : Table} {name : String} (h : Reachable t) (hu : (t.copyAs name).2 = .ok u) :
      Reachable u

/-- A change of a table that can be made gives another one, if what it attaches can be made. -/
theorem Reachable.apply {t : Table} (h : t.Reachable) {change : Change}
    (hbuilt : ∀ c, change = .append c → c.Built) : (change.apply t).Reachable := by
  cases change with
  | ofName name => exact .ofName name
  | withSchema schema => exact h.withSchema schema
  | addColumn c => exact h.addColumn c
  | append c =>
      cases hu : t.append c with
      | error e => rwa [Change.apply, hu]
      | ok result =>
          rw [Change.apply, hu]
          exact h.append (hbuilt c rfl) hu
  | copyAs name =>
      cases hu : (t.copyAs name).2 with
      | error e => rwa [Change.apply, hu]
      | ok u =>
          rw [Change.apply, hu]
          exact h.copyAs hu

/-- Any changes of a new table give a table that can be made, if what they attach can be made. -/
theorem reachable_run (name : String) (changes : List Change)
    (hbuilt : ∀ c, Change.append c ∈ changes → c.Built) :
    (Ledger.run name changes).table.Reachable :=
  List.foldlRecOn changes Ledger.after (motive := fun l => l.table.Reachable) (.ofName name)
    fun _ h _ hchange => h.apply fun c heq => hbuilt c (heq ▸ hchange)

/-- The constraints of a table that can be made could be made, and were attached. -/
theorem Reachable.exists_attached {t : Table} (h : t.Reachable) : ∀ k ∈ t.constraints,
    ∃ c u notices, Constraint.Built c ∧ c.attach u = .ok (k, notices) := by
  induction h with
  | ofName name => exact nofun
  | withSchema _ schema ih => exact ih
  | addColumn _ c ih => exact ih
  | append _ hc hu ih =>
      obtain ⟨k, hattach, rfl⟩ := exists_of_append hu
      intro d hd
      rcases List.mem_append.mp hd with hd | hd
      · exact ih d hd
      · rw [List.mem_singleton.mp hd]
        exact ⟨_, _, _, hc, hattach⟩
  | copyAs _ hu ih =>
      obtain ⟨ks, rfl, hks⟩ := exists_of_copyAs hu
      intro k hk
      obtain ⟨c, hc, v, copy, notices, -, -, hcopy, hattach⟩ := exists_of_mem_right hks hk
      obtain ⟨c₀, u₀, notices₀, hbuilt, hattach₀⟩ := ih c hc
      exact ⟨copy, v, notices, (hbuilt.attach hattach₀).copyTo hcopy, hattach⟩

/-- **What is known of the constraints of a table that can be made.** -/
theorem Reachable.sound {t : Table} (h : t.Reachable) : ∀ k ∈ t.constraints, k.Sound := by
  intro k hk
  obtain ⟨c, u, notices, hbuilt, hattach⟩ := h.exists_attached k hk
  exact Constraint.sound_of_attach hattach hbuilt.buildable

end Table

end SqlClause
