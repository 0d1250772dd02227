import Mathlib.Data.List.Forall2
import SqlClause.Proofs.Attachment
import SqlClause.Proofs.CopyDefinition

/-!
# What an exclusion says of itself

An exclusion says in four places what it is about: in its elements, in their names, in its columns,
and in the operators by column. The four are made when the exclusion is built. They are made anew
when it is attached, element by element and column by column, and when it is copied, from
expressions that have been bound to other columns. They always agree with one another, with the
pairs that the exclusion was built from, and with the options.

* `Node.firstColumn?_eq`: the first column of an expression among its references;
* `ExcludeConstraint.pairs_of_build`: the elements give back the pairs they were built from;
* `ExcludeConstraint.Agrees`: how the four places agree;
* `ExcludeConstraint.Agrees.settle`, `ExcludeConstraint.Agrees.copyTo`: a step keeps the agreement;
* **`ExcludeConstraint.views_of_comesFrom`**: what any steps leave of an exclusion.
-/

namespace SqlClause

/-! ## 1. Columns that entries are about -/

/-- The first reference in the tree, in preorder, that is to a column by name. -/
def Node.leading? (n : Node) : Option ColumnRef := n.columnRefs.find? fun r => !r.literal

theorem Node.firstColumn?_eq (n : Node) : n.firstColumn? = n.leading? := by
  have hnamed : ∀ m : Node, m.namedColumn? = m.clause.columnRef?.filter fun r => !r.literal := by
    rintro ⟨c⟩
    cases c with
    | column r =>
        show (if r.literal then none else some r) = (some r).filter fun r => !r.literal
        cases hliteral : r.literal <;> simp [Option.filter, hliteral]
    | _ => rfl
  rw [firstColumn?, leading?, columnRefs, ← List.head?_filterMap, ← List.head?_filter,
    List.filter_filterMap]
  exact congrArg (List.head? <| List.filterMap · n.preorder) (funext hnamed)

/-- The first column keeps its name if all references keep theirs. -/
theorem Node.leading?_of_keepsName {f : ColumnRef → ColumnRef} {n m : Node}
    (hrefs : m.columnRefs = n.columnRefs.map f) (hkeeps : ∀ r ∈ n.columnRefs, KeepsName f r) :
    m.leading?.map (·.name) = n.leading?.map (·.name) := by
  rw [leading?, leading?, hrefs]
  generalize n.columnRefs = refs at hkeeps
  induction refs with
  | nil => rfl
  | cons r refs ih =>
      obtain ⟨hname, hliteral⟩ := hkeeps r List.mem_cons_self
      rw [List.map_cons, List.find?_cons, List.find?_cons, hliteral]
      cases r.literal with
      | false => exact congrArg some hname
      | true => exact ih fun r' hr' => hkeeps r' (List.mem_cons_of_mem r hr')

namespace Argument

/-- The references to columns in the argument. -/
def references : Argument → List ColumnRef
  | element n => n.columnRefs
  | value _ => []

/-- No SQL text in the argument stands for a column of a table. -/
def Plain (a : Argument) : Prop := ∀ r ∈ a.references, r.literal = true → r.table = none

/-- The name of the column that the argument is about. -/
def columnName? : Argument → Option String
  | element n => n.leading?.map (·.name)
  | value (.text name) => some name
  | value _ => none

end Argument

namespace Entry

/-- The name of the column that the entry is about: the name that it waits for, or that of the first
column in the expression. -/
def columnName? : Entry → Option String
  | pending name => some name
  | resolved n => n.leading?.map (·.name)

/-- The entry for the column that the entry is about. -/
def column? : Entry → Option Entry
  | pending name => some (pending name)
  | resolved n => n.leading?.map fun r => resolved ⟨.column r⟩

theorem columnName?_argument (e : Entry) : e.argument.columnName? = e.columnName? := by
  cases e <;> rfl

theorem columnName?_member (e : Entry) : e.member.columnName? = e.columnName? := by
  cases e with
  | pending name => rfl
  | resolved n =>
      rw [columnName?, ← n.firstColumn?_eq]
      exact Option.or_none

theorem columnEntry?_member (e : Entry) : e.member.columnEntry? = e.column? := by
  cases e with
  | pending name => rfl
  | resolved n =>
      rw [column?, ← n.firstColumn?_eq]
      rfl

/-- A settled entry is about the same column. -/
theorem Settles.columnName?_eq {t : Table} {e e' : Entry} (h : Settles t e e') :
    e'.columnName? = e.columnName? := by
  cases h with
  | resolved _ => rfl
  | pending h =>
      obtain ⟨c, hcolumn, rfl⟩ := Option.map_eq_some_iff.mp h
      exact congrArg some (Table.name_of_column? hcolumn)

/-- The entry for the column of a settled entry is that of the entry, settled. -/
theorem Settles.column? {t : Table} {e e' : Entry} (h : Settles t e e') :
    Option.Rel (Settles t) e.column? e'.column? := by
  cases h with
  | pending h =>
      obtain ⟨c, hcolumn, rfl⟩ := Option.map_eq_some_iff.mp h
      exact .some (.pending h)
  | @resolved n _ =>
      show Option.Rel _ (n.leading?.map _) (n.leading?.map _)
      cases n.leading? with
      | none => exact .none
      | some r => exact .some (.resolved (Node.agrees_self_iff _).mpr)

/-- Settling brings in no SQL text that stands for a column of a table. -/
theorem Settles.plain {t : Table} {e e' : Entry} (h : Settles t e e')
    (hplain : e.argument.Plain) : e'.argument.Plain := by
  cases h with
  | resolved _ => exact hplain
  | pending h =>
      obtain ⟨c, -, rfl⟩ := Option.map_eq_some_iff.mp h
      intro r hr hr'
      obtain rfl := List.mem_singleton.mp (show r ∈ [c.ref] from hr)
      cases hr'

/-- An entry is settled in one way. -/
theorem rightUnique_settles (t : Table) : Relator.RightUnique (Settles t) := by
  rintro e e₁ e₂ (h₁ | -) (h₂ | -)
  · rw [Option.some.inj (h₁.symm.trans h₂)]
  · rfl

end Entry

/-! ## 2. Agreement -/

namespace ExcludeConstraint

/-- The exclusion agrees with the pairs and the options, and within itself. -/
structure Agrees (pairs : List (Argument × String)) (options : ExcludeOptions)
    (c : ExcludeConstraint) : Prop where
  operator : c.elements.map (·.operator) = pairs.map (·.2)
  name : c.elements.map (·.name) = pairs.map (·.1.columnName?)
  entry : ∀ e ∈ c.elements, e.name = e.expression.columnName?
  columns : c.columns = c.elements.filterMap (·.expression.column?)
  operators : c.operators = .ofList (c.elements.filterMap ExcludeElement.operatorEntry?)
  options : c.options = { options with
    method := some (options.method.getD "gist"), criterion := none }
  method : isIndexMethod c.method = true
  plain : ∀ e ∈ c.elements, e.expression.argument.Plain

variable {pairs : List (Argument × String)} {options : ExcludeOptions} {c k : ExcludeConstraint}
  {t : Table}

/-- A member that is read is the member of an entry, and the entry gives back the argument. -/
theorem argument_of_readMember {a : Argument} {m : Member} (h : readMember .ddl a = .ok m) :
    m.expression.argument = a ∧ m.expression.member = m := by
  cases a with
  | element n =>
      obtain ⟨n', hcoerce, rfl⟩ := exists_of_map_eq_ok h
      obtain ⟨-, rfl⟩ := coerce_element_eq_ok_iff.mp hcoerce
      exact ⟨rfl, rfl⟩
  | value v =>
      cases v with
      | text s =>
          obtain rfl := Except.ok.inj h
          exact ⟨rfl, rfl⟩
      | _ => cases h

/-- The elements of members that are read give back what was read, and the members. -/
theorem pairs_of_members {pairs : List (Argument × String)} {members : List Member}
    (h : List.Forall₂ (fun p m => readMember .ddl p.1 = .ok m) pairs members) :
    let elements := List.zipWith ExcludeElement.ofMember members (pairs.map (·.2))
    elements.map (fun e => (e.expression.argument, e.operator)) = pairs ∧
      elements.map (·.expression.member) = members := by
  induction h with
  | nil => exact ⟨rfl, rfl⟩
  | cons hread _ ih =>
      obtain ⟨hargument, hmember⟩ := argument_of_readMember hread
      exact ⟨congrArg₂ List.cons (congrArg (·, _) hargument) ih.1,
        congrArg₂ List.cons hmember ih.2⟩

/-- **The elements give back the pairs they were built from.** -/
theorem pairs_of_build (h : build pairs options = .ok c) :
    c.elements.map (fun e => (e.expression.argument, e.operator)) = pairs ∧
      ∃ criterion, c = ofMembers (c.elements.map (·.expression.member))
        (c.elements.map (·.operator)) options criterion := by
  obtain ⟨-, -, members, criterion, hmembers, -, rfl⟩ := build_eq_ok_iff.mp h
  have hread := List.forall₂_map_left_iff.mp (forall₂_of_mapM_eq_ok hmembers)
  obtain ⟨hpairs, hmember⟩ := pairs_of_members hread
  refine ⟨hpairs, criterion, ?_⟩
  have hoperators := congrArg (List.map Prod.snd) hpairs
  rw [List.map_map] at hoperators
  show _ = ofMembers (List.map _ (List.zipWith _ _ _)) (List.map _ (List.zipWith _ _ _)) _ _
  rw [hmember]
  exact congrArg (ofMembers members · options criterion) hoperators.symm

/-- **What is built agrees** with what it is built from. -/
theorem agrees_of_build (h : build pairs options = .ok c)
    (hplain : ∀ p ∈ pairs, p.1.Plain) :
    Agrees pairs options c := by
  have hbuildable := buildable_of_build h
  obtain ⟨hpairs, criterion, hc⟩ := pairs_of_build h
  have hentry : ∀ e ∈ c.elements, e.name = e.expression.columnName? := by
    intro e he
    rw [hc] at he
    have he : e ∈ List.zipWith _ (List.map _ c.elements) (List.map _ c.elements) := he
    rw [List.zipWith_map, List.zipWith_self] at he
    obtain ⟨d, -, rfl⟩ := List.mem_map.mp he
    show d.expression.member.columnName? = d.expression.member.expression.columnName?
    rw [Entry.columnName?_member, Entry.expression_member]
  refine ⟨?_, ?_, hentry, ?_, ?_, ?_, hbuildable.method, ?_⟩
  · rw [← hpairs, List.map_map]
    rfl
  · rw [← hpairs, List.map_map]
    refine List.map_congr_left fun e he => ?_
    rw [hentry e he]
    exact e.expression.columnName?_argument.symm
  · have hcolumns : c.columns = (c.elements.map (·.expression.member)).filterMap
        Member.columnEntry? := congrArg columns hc
    rw [hcolumns, List.filterMap_map]
    exact List.filterMap_congr fun e _ => e.expression.columnEntry?_member
  · obtain ⟨-, -, members, _, -, -, rfl⟩ := build_eq_ok_iff.mp h
    rfl
  · exact congrArg ExcludeConstraint.options hc
  · intro e he
    rw [← hpairs] at hplain
    exact hplain _ (List.mem_map_of_mem he)

/-! ## 3. Steps that keep the agreement -/

/-- **Settling keeps the agreement.** -/
theorem Agrees.settle (h : Agrees pairs options c) (hk : c.settle t = .ok k) :
    Agrees pairs options k := by
  obtain ⟨elements, columns, helements, hcolumns, rfl⟩ := exists_of_settle hk
  refine ⟨?_, ?_, ?_, ?_, ?_, h.options, h.method, ?_⟩
  · rw [← h.operator]
    exact (map_eq_of_forall₂ (fun he => he.2.2.symm) helements).symm
  · rw [← h.name]
    exact (map_eq_of_forall₂ (fun he => he.2.1.symm) helements).symm
  · intro e' he'
    obtain ⟨e, he, hsettles, hname, -⟩ := exists_of_mem_right helements he'
    rw [hname, hsettles.columnName?_eq]
    exact h.entry e he
  · have hentries := List.rel_filterMap (P := Entry.Settles t)
      (fun e e' (he : _ ∧ _) => he.1.column?) helements
    rw [← h.columns] at hentries
    exact List.right_unique_forall₂' (Entry.rightUnique_settles t) hcolumns hentries
  · have hentries : c.elements.map ExcludeElement.operatorEntry? =
        elements.map ExcludeElement.operatorEntry? :=
      map_eq_of_forall₂ (fun {e e'} he => by
        rw [ExcludeElement.operatorEntry?, ExcludeElement.operatorEntry?, he.2.1, he.2.2]) helements
    have hlist := congrArg (List.filterMap id) hentries
    rw [List.filterMap_map, List.filterMap_map] at hlist
    exact h.operators.trans (congrArg NameMap.ofList hlist)
  · intro e' he'
    obtain ⟨e, he, hsettles, -⟩ := exists_of_mem_right helements he'
    exact hsettles.plain (h.plain e he)

/-- What a reference becomes in a copy: its name and its kind stay, and SQL text stays as it is. -/
theorem exists_of_rebind {source : Option Relation} {n m : Node}
    (h : rebind source (some t) n = .ok m) (hplain : (Argument.element n).Plain) :
    ∃ f, m.columnRefs = n.columnRefs.map f ∧
      ∀ r ∈ n.columnRefs, KeepsName f r ∧ (r.literal = true → f r = r) := by
  cases source with
  | none =>
      obtain rfl := Except.ok.inj h
      exact ⟨id, (List.map_id _).symm, fun r _ => ⟨⟨rfl, rfl⟩, fun _ => rfl⟩⟩
  | some source =>
      obtain ⟨rfl, -⟩ := (resultUnless_rebind source t n).eq_ok_iff.mp h
      refine ⟨t.rebound (some source), Node.columnRefs_mapColumns _ n, fun r hr => ?_⟩
      refine ⟨Table.keepsName_rebound t (hplain r hr), fun hr' => Table.rebound_of_ne ?_⟩
      rw [hplain r hr hr']
      exact nofun

/-- The argument that an entry is copied to is about a column of the same name. -/
theorem columnName?_of_copyEntry {source : Option Relation} {e : Entry} {a : Argument}
    (h : copyEntry source t e = .ok a) (hplain : e.argument.Plain) :
    a.columnName? = e.columnName? ∧ a.Plain := by
  cases e with
  | pending name =>
      obtain rfl := Except.ok.inj h
      exact ⟨rfl, hplain⟩
  | resolved n =>
      obtain ⟨m, hm, rfl⟩ := exists_of_map_eq_ok h
      obtain ⟨f, hrefs, hkeeps⟩ := exists_of_rebind hm hplain
      refine ⟨Node.leading?_of_keepsName hrefs fun r hr => (hkeeps r hr).1, ?_⟩
      show ∀ r ∈ m.columnRefs, _
      rw [hrefs]
      intro r' hr' hr'literal
      obtain ⟨r, hr, rfl⟩ := List.mem_map.mp hr'
      obtain ⟨⟨-, hsame⟩, hstays⟩ := hkeeps r hr
      rw [hsame] at hr'literal
      rw [hstays hr'literal]
      exact hplain r hr hr'literal

/-- **Copying keeps the agreement.** -/
theorem Agrees.copyTo (h : Agrees pairs options c) (hk : c.copyTo t = .ok k) :
    Agrees pairs options k := by
  obtain ⟨copies, hcopies, hk⟩ := exists_of_bind_eq_ok hk
  obtain ⟨criterion, -, hk⟩ := exists_of_bind_eq_ok hk
  obtain ⟨copy, hbuild, hk⟩ := exists_of_bind_eq_ok hk
  obtain rfl := Except.ok.inj hk
  -- what the elements are about, and what they are copied to
  have hcopied : List.Forall₂ (fun e p =>
      (e.name = e.expression.columnName? ∧ e.expression.argument.Plain) ∧
      copyEntry c.parent t e.expression = .ok p.1 ∧ p.2 = e.operator) c.elements copies := by
    refine (List.forall₂_and_left _ _).mpr ⟨fun e he => ⟨h.entry e he, h.plain e he⟩, ?_⟩
    refine (forall₂_of_mapM_eq_ok hcopies).imp fun e p hp => ?_
    obtain ⟨a, ha, hp⟩ := exists_of_bind_eq_ok hp
    obtain rfl := Except.ok.inj hp
    exact ⟨ha, rfl⟩
  have hcopy : Agrees copies { c.options with criterion } copy :=
    agrees_of_build hbuild fun p hp => by
      obtain ⟨e, -, ⟨-, hplain⟩, hentry, -⟩ := exists_of_mem_right hcopied hp
      exact (columnName?_of_copyEntry hentry hplain).2
  refine ⟨?_, ?_, hcopy.entry, hcopy.columns, hcopy.operators, ?_, hcopy.method, hcopy.plain⟩
  · rw [← h.operator, map_eq_of_forall₂ (fun hp => hp.2.2.symm) hcopied]
    exact hcopy.operator
  · have hnames : c.elements.map (·.name) = copies.map (·.1.columnName?) :=
      map_eq_of_forall₂ (fun ⟨⟨hname, hplain⟩, hentry, _⟩ =>
        hname.trans (columnName?_of_copyEntry hentry hplain).1.symm) hcopied
    rw [← h.name, hnames]
    exact hcopy.name
  · exact hcopy.options.trans h.options

/-! ## 4. Any steps -/

/-- The exclusion comes from one that was built from the pairs and the options: by listeners, by
attempts to attach it, and by copies, be it alone or as one constraint of a table. -/
inductive ComesFrom (pairs : List (Argument × String)) (options : ExcludeOptions) :
    ExcludeConstraint → Prop where
  | build {c : ExcludeConstraint} (h : build pairs options = .ok c) : ComesFrom pairs options c
  | listen {c : ExcludeConstraint} (h : ComesFrom pairs options c) (listeners : Listeners) :
      ComesFrom pairs options { c with listeners }
  | setParent {c : ExcludeConstraint} (h : ComesFrom pairs options c) (t : Table)
      (told : List Notice) : ComesFrom pairs options (setParent t ⟨c, told⟩).2.value
  | append {c k : ExcludeConstraint} {t u : Table} {notices : List Notice}
      (h : ComesFrom pairs options c) (hu : t.append (.exclude c) = .ok (u, notices))
      (hk : u.constraints.getLast? = some (.exclude k)) : ComesFrom pairs options k
  | copyTo {c k : ExcludeConstraint} {t : Table} (h : ComesFrom pairs options c)
      (hk : c.copyTo t = .ok k) : ComesFrom pairs options k
  | copyAs {c k : ExcludeConstraint} {t u : Table} {name : String} {i : Nat}
      (h : ComesFrom pairs options c) (hc : t.constraints[i]? = some (.exclude c))
      (hu : (t.copyAs name).2 = .ok u) (hk : u.constraints[i]? = some (.exclude k)) :
      ComesFrom pairs options k

theorem Agrees.attach {notices : List Notice} (h : Agrees pairs options c)
    (hk : (Constraint.exclude c).attach t = .ok (.exclude k, notices)) :
    Agrees pairs options k := by
  obtain ⟨-, hsettle⟩ := Constraint.settle_of_attach hk
  obtain ⟨d, hd, heq⟩ := exists_of_map_eq_ok hsettle
  obtain rfl := Constraint.exclude.inj heq
  exact h.settle hd

/-- **Any steps keep the agreement.** -/
theorem ComesFrom.agrees (h : ComesFrom pairs options c)
    (hplain : ∀ p ∈ pairs, p.1.Plain) :
    Agrees pairs options c := by
  induction h with
  | build h => exact agrees_of_build h hplain
  | listen _ listeners ih => exact { ih with }
  | @setParent c _ t told ih =>
      rcases setParent_cases c t told with ⟨e, -, hsame⟩ | ⟨-, -, hsettle⟩
      · rwa [hsame]
      · exact ih.settle hsettle
  | append _ hu hk ih =>
      obtain ⟨d, hattach, rfl⟩ := Table.exists_of_append hu
      rw [Table.push, List.getLast?_concat] at hk
      obtain rfl := Option.some.inj hk
      exact ih.attach hattach
  | copyTo _ hk ih => exact ih.copyTo hk
  | @copyAs c k t u name i _ hc hu hk ih =>
      obtain ⟨ks, rfl, hks⟩ := Table.exists_of_copyAs hu
      obtain ⟨hi, hc⟩ := List.getElem?_eq_some_iff.mp hc
      obtain ⟨hi', hk⟩ := List.getElem?_eq_some_iff.mp hk
      obtain ⟨v, copy, notices, -, -, hcopy, hattach⟩ := hks.get hi hi'
      rw [List.get_eq_getElem, hc] at hcopy
      rw [List.get_eq_getElem, hk] at hattach
      obtain ⟨d, hd, rfl⟩ := exists_of_map_eq_ok hcopy
      exact (ih.copyTo hd).attach hattach

/-- The operator for a column is that of the last element that is about the column. -/
theorem get?_operatorEntries (es : List ExcludeElement) (name : String) :
    (NameMap.ofList (es.filterMap ExcludeElement.operatorEntry?)).get? name =
      (es.reverse.find? (·.name = some name)).map (·.operator) := by
  rw [NameMap.get?_ofList, ← List.filterMap_reverse]
  induction es.reverse with
  | nil => rfl
  | cons e es ih =>
      cases hname : e.name with
      | none =>
          rw [List.filterMap_cons_none (by rw [ExcludeElement.operatorEntry?, hname]; rfl), ih,
            List.find?_cons_of_neg (by simp [hname])]
      | some name' =>
          have hentry : e.operatorEntry? = some (name', e.operator) := by
            rw [ExcludeElement.operatorEntry?, hname]
            rfl
          rw [List.filterMap_cons_some hentry]
          by_cases h : name' = name
          · rw [List.find?_cons_of_pos (by simp [h]), List.find?_cons_of_pos (by simp [hname, h])]
            rfl
          · rw [List.find?_cons_of_neg (by simp [h]), ih,
              List.find?_cons_of_neg (by simp [hname, h])]

/-- **What an exclusion says of itself**, whatever has been done to it since it was built. It has an
element for each pair, in order, with the operator of the pair. An element is named after the column
that its entry is about, which is also the one that the argument was about, and has no name only if
there is none. The columns are those that the elements are about, in order. Every column that an
element is named after has the operator of the last such element, and no other name has one. The
options are as they were given, and the index method is a word. -/
theorem views_of_comesFrom (h : ComesFrom pairs options c)
    (hplain : ∀ p ∈ pairs, p.1.Plain) :
    c.elements.map (·.operator) = pairs.map (·.2) ∧
    c.elements.map (·.name) = pairs.map (·.1.columnName?) ∧
    (∀ e ∈ c.elements, e.name = e.expression.columnName?) ∧
    c.columns = c.elements.filterMap (·.expression.column?) ∧
    (∀ name, c.operators.get? name =
      (c.elements.reverse.find? (·.name = some name)).map (·.operator)) ∧
    c.classes = options.classes ∧ c.method = options.method.getD "gist" ∧
    c.name = options.name ∧ c.deferrable = options.deferrable ∧ c.initially = options.initially ∧
    c.method ≠ "" ∧ ∀ char ∈ c.method.toList, char.isAlphanum = true ∨ char = '_' := by
  have hagrees := h.agrees hplain
  obtain ⟨hname, hdeferrable, hinitially, hmethod, -, hclasses⟩ :=
    ExcludeOptions.mk.inj hagrees.options
  refine ⟨hagrees.operator, hagrees.name, hagrees.entry, hagrees.columns, fun name => ?_, hclasses,
    Option.some.inj hmethod, hname, hdeferrable, hinitially, ?_⟩
  · rw [hagrees.operators, get?_operatorEntries]
  · obtain ⟨hnonempty, hword⟩ := Bool.and_eq_true_iff.mp hagrees.method
    refine ⟨?_, fun char hchar => ?_⟩
    · rintro hempty
      rw [hempty] at hnonempty
      cases hnonempty
    · rcases Bool.or_eq_true_iff.mp (List.all_eq_true.mp hword char hchar) with h | h
      · exact .inl h
      · exact .inr (beq_iff_eq.mp h)

/-- One element of the exclusion waits for its table, the other one is an expression. -/
def noOverlapPairs : List (Argument × String) :=
  [(.value (.text "room"), "="), (.element (Table.bookingColumn "during"), "&&")]

def noOverlapOptions : ExcludeOptions :=
  { ExcludeOptions.default with
    name := some "no_overlap", criterion := some (.element (Table.bookingColumn "confirmed")) }

/-- The exclusion of the bookings is attached, and copied along with its table. -/
theorem views_of_comesFrom_noOverlap :
    let t := (Ledger.run "bookings" Table.bookings).table
    ∃ u c, (t.copyAs "archive").2 = .ok u ∧ u.constraints[1]? = some (.exclude c) ∧
      ComesFrom noOverlapPairs noOverlapOptions c ∧
      (∀ p ∈ noOverlapPairs, p.1.Plain) ∧
      c.elements.map (·.operator) = ["=", "&&"] ∧
      c.elements.map (·.name) = [some "room", some "during"] ∧ c.method = "gist" := by
  intro t
  have hbuild : build noOverlapPairs noOverlapOptions = .ok Table.noOverlap := by
    unfold noOverlapPairs noOverlapOptions
    rfl
  have hplain : ∀ p ∈ noOverlapPairs, p.1.Plain := by
    unfold Argument.Plain
    decide
  have hcomplete : t.Complete := by
    unfold Table.Complete
    decide
  have hu : (t.copyAs "archive").2 = .ok (t.copied "archive") :=
    (Table.copyAs_eq_ok_iff Table.reachable_bookings).mpr ⟨rfl, hcomplete⟩
  obtain ⟨c, hc⟩ : ∃ c, (t.copied "archive").constraints[1]? = some (.exclude c) := ⟨_, rfl⟩
  have hattached : t.constraints[1]? =
      some (.exclude (setParent (Ledger.run "bookings" (Table.bookings.take 5)).table
        ⟨Table.noOverlap, []⟩).2.value) := rfl
  have hcomes : ComesFrom noOverlapPairs noOverlapOptions c :=
    ((ComesFrom.build hbuild).setParent _ []).copyAs hattached hu hc
  obtain ⟨hoperators, hnames, -, -, -, -, hmethod, -⟩ := views_of_comesFrom hcomes hplain
  exact ⟨_, c, hu, hc, hcomes, hplain, hoperators, hnames, hmethod⟩

end ExcludeConstraint

end SqlClause
