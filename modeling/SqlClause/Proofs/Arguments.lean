import SqlClause.Coercion
import SqlClause.Proofs.Outcome

/-!
# Arguments read again

What has been read for a role can play it: read again under the role it is taken as it is, whatever
type or name is asked for the second time. What plays the expression role plays every role. The
members of a constraint are read item by item; a name that waits for its table is read as such where
the name of a column would be read otherwise, so the members are those arguments that can be read at
all, in their order, and their expressions are read as the same members again.

* `Role.accepts_of_read?`: what a value is read as can play the role;
* `coerceWith_of_accepts`, `accepts_of_coerceWith`: what is read is what is accepted;
* `coerceWith_expression`: which arguments are read as expressions, and as which;
* `readMember_eq_map`: a member is what the argument is read as;
* `readMembers_expressions`: the members that come of the expressions of members;
* **`coerceWith_settles`**: reading once and reading again.
-/

namespace SqlClause

/-! ## 1. What is accepted -/

/-- **What a value is read as can play the role.** -/
theorem Role.accepts_of_read? {role : Role} {v : Value} {options : BindOptions} {n : Node}
    (h : role.read? v options = some n) : role.accepts n = true := by
  cases role with
  | expression =>
      obtain rfl := Option.some.inj h
      rfl
  | byOf =>
      cases v with
      | text s | null =>
          obtain rfl := Option.some.inj h
          rfl
      | bool b =>
          obtain rfl := Option.some.inj h
          cases b <;> rfl
      | _ => cases h
  | option | ddl =>
      cases v with
      | text s =>
          obtain rfl := Option.some.inj h
          rfl
      | _ => cases h

/-- What plays the expression role plays every role. -/
theorem Role.accepts_of_expression {n : Node} (h : Role.expression.accepts n = true)
    (role : Role) : role.accepts n = true := by
  have hcolumn : n.isColumnElement = true := h
  cases role with
  | expression | byOf => exact hcolumn
  | option | ddl =>
      show (n.isColumnElement || n.isText) = true
      rw [hcolumn, Bool.true_or]

theorem coerceWith_of_accepts {role : Role} {n : Node} (h : role.accepts n = true)
    (options : BindOptions) : coerceWith role (.element n) options = .ok n :=
  coerce_element_eq_ok_iff.mpr ⟨h, rfl⟩

/-- **What is read is accepted.** -/
theorem accepts_of_coerceWith {role : Role} {a : Argument} {options : BindOptions} {n : Node}
    (h : coerceWith role a options = .ok n) : role.accepts n = true := by
  cases a with
  | element m =>
      obtain ⟨haccepts, rfl⟩ := coerce_element_eq_ok_iff.mp h
      exact haccepts
  | value v =>
      cases hread : role.read? v options with
      | none =>
          rw [coerceWith, hread] at h
          cases h
      | some m =>
          rw [coerceWith, hread] at h
          obtain rfl := Except.ok.inj h
          exact Role.accepts_of_read? hread

/-! ## 2. Expressions -/

namespace Argument

/-- Why the argument cannot play the expression role: it is a clause that yields no value of a
column. -/
def offence? : Argument → Option Error
  | element n =>
      if n.isColumnElement then none
      else some (.coercion .expression (element n).description .notColumn)
  | value _ => none

/-- The clause itself, or the value bound with the options. -/
def expression (options : BindOptions) : Argument → Node
  | element n => n
  | value v => .bind options.name v options.type

theorem offence?_eq_some_iff {a : Argument} {e : Error} :
    a.offence? = some e ↔ ∃ n, a = .element n ∧ n.isColumnElement = false ∧
      e = .coercion .expression ("'" ++ n.tag ++ "' element") .notColumn := by
  cases a with
  | value v => exact iff_of_false nofun nofun
  | element n =>
      cases h : n.isColumnElement with
      | true =>
          refine iff_of_false (by simp [offence?, h]) ?_
          rintro ⟨m, hm, hfalse, -⟩
          obtain rfl := Argument.element.inj hm
          rw [h] at hfalse
          cases hfalse
      | false =>
          simp only [offence?, h, Bool.false_eq_true, if_false, Option.some.injEq]
          constructor
          · rintro rfl
            exact ⟨n, rfl, h, rfl⟩
          · rintro ⟨m, hm, -, rfl⟩
            obtain rfl := Argument.element.inj hm
            rfl

theorem offence?_eq_none_iff {a : Argument} :
    a.offence? = none ↔ ∀ n, a = .element n → n.isColumnElement = true := by
  cases a with
  | value v => exact iff_of_true rfl nofun
  | element n => simp [offence?]

end Argument

/-- **An argument is read as an expression unless it is a clause of another kind**, whatever the
options are. -/
theorem coerceWith_expression (a : Argument) (options : BindOptions) :
    coerceWith .expression a options = match a.offence? with
      | some e => .error e
      | none => .ok (a.expression options) := by
  cases a with
  | value v => rfl
  | element n =>
      have haccepts : Role.expression.accepts n = n.isColumnElement := rfl
      rw [coerceWith, haccepts, Argument.offence?]
      cases n.isColumnElement <;> rfl

theorem coerceWith_expression_of_none {a : Argument} (h : a.offence? = none)
    (options : BindOptions) : coerceWith .expression a options = .ok (a.expression options) := by
  rw [coerceWith_expression, h]

theorem failure?_expression (a : Argument) (options : BindOptions) :
    failure? (coerceWith .expression a options) = a.offence? := by
  rw [coerceWith_expression]
  cases a.offence? <;> rfl

/-! ## 3. Members -/

namespace Member

/-- What the member stands for: a name that waits stands for the column of that name. -/
def node (m : Member) : Node :=
  match m.expression with
  | .pending name => .column name
  | .resolved n => n

/-- The member is an expression already. -/
def isResolved (m : Member) : Bool := m.expression.node?.isSome

/-- The expression of the member, as an argument. -/
def argument? (m : Member) : Option Argument := m.expression.node?.map .element

end Member

/-- The arguments that are the expressions of members. -/
def expressionsOf (members : List Member) : List Argument := members.filterMap Member.argument?

/-- A name is read as a member under the constraint role, and only there. -/
theorem readMember_cases (role : Role) (a : Argument) :
    (role = .ddl ∧ ∃ name, a = .value (.text name) ∧ readMember role a = .ok (.ofName name)) ∨
      readMember role a = (coerce role a).map .ofNode := by
  unfold readMember
  split
  · exact .inl ⟨rfl, _, rfl, rfl⟩
  · exact .inr rfl

/-- **A member is what the argument is read as**: the way of its own that names have comes to the
same, and fails for the same arguments. -/
theorem readMember_eq_map (role : Role) (a : Argument) :
    (readMember role a).map Member.node = coerce role a := by
  rcases readMember_cases role a with ⟨rfl, name, rfl, hname⟩ | hother
  · rw [hname]
    rfl
  · rw [hother]
    cases coerce role a <;> rfl

theorem coerce_of_readMember {role : Role} {a : Argument} {m : Member}
    (h : readMember role a = .ok m) : coerce role a = .ok m.node := by
  rw [← readMember_eq_map, h]
  rfl

theorem failure?_readMember (role : Role) (a : Argument) :
    failure? (readMember role a) = failure? (coerce role a) := by
  rw [← readMember_eq_map]
  cases readMember role a <;> rfl

theorem failure?_readMembers (role : Role) (args : List Argument) :
    failure? (readMembers role args) = failure? (args.mapM (coerce role)) := by
  rw [readMembers, failure?_mapM, failure?_mapM]
  exact findSome?_congr fun a _ => failure?_readMember role a

/-- The expression of a member is read as the same member again. -/
theorem readMember_expression {role : Role} {a : Argument} {m : Member} {n : Node}
    (h : readMember role a = .ok m) (hn : m.expression.node? = some n) :
    readMember role (.element n) = .ok m := by
  rcases readMember_cases role a with ⟨rfl, name, rfl, hname⟩ | hother
  · obtain rfl := Except.ok.inj (hname.symm.trans h)
    cases hn
  · rw [hother] at h
    obtain ⟨n', hn', rfl⟩ := exists_of_map_eq_ok h
    obtain rfl := Option.some.inj hn
    have hagain : coerce role (.element n') = .ok n' :=
      coerceWith_of_accepts (accepts_of_coerceWith hn') .default
    have hread : readMember role (.element n') = (coerce role (.element n')).map .ofNode := by
      cases role <;> rfl
    rw [hread, hagain]
    rfl

/-- **The members that come of the expressions of members** are these members. -/
theorem readMembers_expressions {role : Role} {args : List Argument} {members : List Member}
    (h : readMembers role args = .ok members) :
    readMembers role (expressionsOf members) = .ok (members.filter Member.isResolved) := by
  have hread := forall₂_of_mapM_eq_ok h
  clear h
  induction hread with
  | nil => rfl
  | @cons a m args members ha _ ih =>
      cases hn : m.expression.node? with
      | none =>
          have hpending : m.isResolved ≠ true := by simp [Member.isResolved, hn]
          have hnone : m.argument? = none := by rw [Member.argument?, hn]; rfl
          rw [expressionsOf, List.filterMap_cons_none hnone, List.filter_cons_of_neg hpending]
          exact ih
      | some n =>
          have hresolved : m.isResolved = true := by simp [Member.isResolved, hn]
          have hsome : m.argument? = some (.element n) := by rw [Member.argument?, hn]; rfl
          rw [expressionsOf, List.filterMap_cons_some hsome, List.filter_cons_of_pos hresolved,
            readMembers, List.mapM_cons, readMember_expression ha hn]
          show (do return m :: (← readMembers role (expressionsOf members))) = _
          rw [ih]
          rfl

/-! ## 4. Reading once and reading again -/

/-- **Reading once and reading again.** What an argument is read as under a role, with whatever
options, is read as itself under the role with all other options. A clause is read as itself or not
at all, and the options do not matter to that; if it is read under the expression role, it is under
every role. The members of a constraint are read exactly if each argument can be, each member for
the argument in its place, and otherwise with the failure of the first argument that cannot; and the
expressions among them are read as the same members again. -/
theorem coerceWith_settles :
    (∀ role a options m, coerceWith role a options = .ok m →
      ∀ later, coerceWith role (.element m) later = .ok m) ∧
    (∀ role n options, (∀ m, coerceWith role (.element n) options = .ok m → m = n) ∧
      ∀ later, coerceWith role (.element n) later = coerceWith role (.element n) options) ∧
    (∀ n options m, coerceWith .expression (.element n) options = .ok m →
      ∀ role later, coerceWith role (.element n) later = .ok n) ∧
    ∀ role args,
      ((∃ members, readMembers role args = .ok members) ↔ ∀ a ∈ args, ∃ n, coerce role a = .ok n) ∧
      (∀ e, readMembers role args = .error e ↔ FirstFailure (coerce role) args e) ∧
      ∀ members, readMembers role args = .ok members →
        members.length = args.length ∧
          List.Forall₂ (fun a m => readMember role a = .ok m ∧ coerce role a = .ok m.node)
            args members ∧
          readMembers role (expressionsOf members) = .ok (members.filter Member.isResolved) := by
  refine ⟨fun role a options m h => coerceWith_of_accepts (accepts_of_coerceWith h),
    fun role n options => ⟨fun m h => (coerce_element_eq_ok_iff.mp h).2, fun later => rfl⟩,
    fun n options m h role => ?_, fun role args => ⟨?_, fun e => ?_, fun members h => ?_⟩⟩
  · have hexpression : Role.expression.accepts n = true := (coerce_element_eq_ok_iff.mp h).1
    exact coerceWith_of_accepts (Role.accepts_of_expression hexpression role)
  · rw [← failure?_eq_none_iff, failure?_readMembers, failure?_eq_none_iff, exists_mapM_eq_ok_iff]
  · rw [← failure?_eq_some_iff, failure?_readMembers, failure?_eq_some_iff, mapM_eq_error_iff]
  · have hread := forall₂_of_mapM_eq_ok h
    exact ⟨hread.length_eq.symm, hread.imp fun a m ha => ⟨ha, coerce_of_readMember ha⟩,
      readMembers_expressions h⟩

/-- A range between two columns. -/
def stay : Node :=
  .function "int8range" [.tableColumn "bookings" "arrival" .bigint,
    .tableColumn "bookings" "departure" .bigint] (.custom "INT8RANGE")

/-- A room by its name, the stay, and a text. -/
def bookingArguments : List Argument :=
  [.value (.text "room"), .element stay, .element (.text "lower(name)")]

/-- The name waits and the other members stand as they are; read again, they are the same. A string
that is read as the text of a column is that column whatever type is asked for the second time. -/
theorem coerceWith_settles_bookings :
    let room := Node.literalColumn "room"
    let members := [Member.ofName "room", .ofNode stay, .ofNode (.text "lower(name)")]
    coerceWith .byOf (.value (.text "room")) .default = .ok room ∧
      coerceWith .byOf (.element room) (.typed .regconfig "f") = .ok room ∧
      coerceWith .expression (.element stay) .default = .ok stay ∧
      coerceWith .ddl (.element stay) (.named "f") = .ok stay ∧
      readMembers .ddl bookingArguments = .ok members ∧
      (∀ a ∈ bookingArguments, ∃ n, coerce .ddl a = .ok n) ∧
      readMembers .ddl (expressionsOf members) =
        .ok [.ofNode stay, .ofNode (.text "lower(name)")] := by
  intro room members
  obtain ⟨hagain, -, hroles, hlists⟩ := coerceWith_settles
  have hroom : coerceWith .byOf (.value (.text "room")) .default = .ok room := rfl
  have hstay : coerceWith .expression (.element stay) .default = .ok stay := rfl
  have hmembers : readMembers .ddl bookingArguments = .ok members := rfl
  obtain ⟨hreadable, -, hread⟩ := hlists .ddl bookingArguments
  obtain ⟨-, -, hexpressions⟩ := hread members hmembers
  exact ⟨hroom, hagain _ _ _ _ hroom _, hstay, hroles _ _ _ hstay _ _, hmembers,
    hreadable.mp ⟨members, hmembers⟩, hexpressions⟩

end SqlClause
