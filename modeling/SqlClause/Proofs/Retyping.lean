import SqlClause.Proofs.ExclusionText

/-!
# Expressions of an exclusion under another type

A coercion gives an expression another type and leaves its text as it is. An exclusion looks at the
expression of an element only from outside: it puts it in parentheses if an operator stands
outermost, and puts the operator class behind it if it is a column. A coercion hides both. So the
text of an exclusion stays the same under a coercion only if there are neither parentheses nor an
operator class to lose.

* `Node.adorned_eq_iff`: when nothing is put around an expression;
* `ExcludeConstraint.Retyped`: an exclusion with one expression under another type;
* `Compiler.sameButAdornment_of_retyped`: what its text lacks;
* **`Compiler.constraint_typeCoerce`**: when the text is the same;
* `Compiler.coercion_loses_parentheses`: a sum that is given another type.
-/

namespace SqlClause

open RenderM

/-! ## 1. What an exclusion puts around an expression -/

namespace Node

/-- An operator stands outermost in the expression. -/
def isOperation (n : Node) : Bool :=
  match n.clause with
  | .binary .. | .unary .. | .list .. => true
  | _ => false

/-- The text of an expression as it stands in an exclusion. -/
def adorned (classes : NameMap String) (n : Node) (text : String) : String :=
  enclosed n text ++ classSuffix (operatorClass? classes n)

variable {s : Settings} {classes : NameMap String} {n : Node} {type : DataType}

theorem enclosed_eq (n : Node) (text : String) :
    enclosed n text = if n.isOperation then "(" ++ text ++ ")" else text := by
  obtain ⟨c⟩ := n
  cases c <;> rfl

/-- **When nothing is put around an expression**: it is no operation and has no operator class. -/
theorem adorned_eq_iff {text : String} : n.adorned classes text = text ↔
    n.isOperation = false ∧ operatorClass? classes n = none := by
  rw [adorned, enclosed_eq]
  constructor
  · intro h
    have hlength := congrArg String.length h
    rw [String.length_append] at hlength
    cases hoperation : n.isOperation with
    | true =>
        rw [hoperation, if_pos rfl, String.length_append, String.length_append] at hlength
        have hopen : "(".length = 1 := rfl
        omega
    | false =>
        rw [hoperation, if_neg Bool.false_ne_true] at hlength
        exact ⟨rfl, length_classSuffix_eq_zero.mp (by omega)⟩
  · rintro ⟨hoperation, hclass⟩
    rw [hoperation, hclass, if_neg Bool.false_ne_true]
    exact String.append_empty

/-- A coercion is rendered like what is under it. -/
theorem render_typeCoerce (h : s.registry.element? "type_coerce" = some .typeCoerce)
    (n : Node) (type : DataType) : (n.typeCoerce type).render s = n.render s :=
  render_of_rule (c := .typeCoerce n type) h

/-- A coercion is about the same column as what is under it. -/
theorem firstColumn?_typeCoerce (n : Node) (type : DataType) :
    (n.typeCoerce type).firstColumn? = n.firstColumn? := by
  rw [typeCoerce, firstColumn?, preorder_mk, List.findSome?_cons]
  show ([n].flatMap preorder).findSome? namedColumn? = _
  rw [List.flatMap_singleton]
  rfl

end Node

namespace ExcludeConstraint

variable {s : Settings} {classes : NameMap String}

/-- In an exclusion a coercion is nothing but the text of what is under it. -/
theorem expressionText_typeCoerce
    (h : s.registry.element? "type_coerce" = some .typeCoerce) (n : Node) (type : DataType) :
    expressionText s classes (.resolved (n.typeCoerce type)) = inDefinition s n.render := by
  have hsame : inDefinition s (n.typeCoerce type).render = inDefinition s n.render := by
    rw [inDefinition, Node.render_typeCoerce h]
    rfl
  rw [expressionText_resolved, hsame]
  cases inDefinition s n.render with
  | error e => rfl
  | ok text => exact congrArg Except.ok String.append_empty

/-! ## 2. One expression under another type -/

/-- The second exclusion is the first one, with one expression under another type. -/
def Retyped (e : Node) (type : DataType) (c c' : ExcludeConstraint) : Prop :=
  ∃ first name operator last,
    c.elements = first ++ ⟨.resolved e, name, operator⟩ :: last ∧
    c' = { c with elements := first ++ ⟨.resolved (e.typeCoerce type), name, operator⟩ :: last }

variable {e : Node} {type : DataType} {c c' : ExcludeConstraint}

/-- How members are read around an expression. -/
theorem readMembers_append_eq_ok_iff {first last : List Argument} {members : List Member} :
    readMembers .ddl (first ++ .element e :: last) = .ok members ↔
      Role.ddl.accepts e = true ∧ ∃ ms ns, readMembers .ddl first = .ok ms ∧
        readMembers .ddl last = .ok ns ∧ members = ms ++ .ofNode e :: ns := by
  rw [readMembers, List.mapM_append, List.mapM_cons]
  constructor
  · intro h
    obtain ⟨ms, hms, hlater⟩ := exists_of_bind_eq_ok h
    obtain ⟨rest, hrest, hall⟩ := exists_of_bind_eq_ok hlater
    obtain ⟨m, hm, hlast⟩ := exists_of_bind_eq_ok hrest
    obtain ⟨ns, hns, hmembers⟩ := exists_of_bind_eq_ok hlast
    obtain ⟨n, hn, rfl⟩ := exists_of_map_eq_ok hm
    obtain ⟨haccepts, heq⟩ := coerce_element_eq_ok_iff.mp hn
    obtain rfl := Except.ok.inj hmembers
    exact ⟨haccepts, ms, ns, hms, hns, heq ▸ (Except.ok.inj hall).symm⟩
  · rintro ⟨haccepts, ms, ns, hms, hns, rfl⟩
    have hread : readMember .ddl (.element e) = .ok (.ofNode e) :=
      Entry.readMember_argument (e := .resolved e) fun n hn => Option.some.inj hn ▸ haccepts
    have hms : first.mapM (readMember .ddl) = .ok ms := hms
    have hns : last.mapM (readMember .ddl) = .ok ns := hns
    rw [hms, hread, hns]
    rfl

variable {ms ns : List Member} {operators later : List String}

/-- The elements of members around one of them. -/
theorem zipWith_ofMember_append (hlength : ms.length = operators.length) (m : Member)
    (operator : String) :
    List.zipWith ExcludeElement.ofMember (ms ++ m :: ns) (operators ++ operator :: later) =
      List.zipWith ExcludeElement.ofMember ms operators ++
        .ofMember m operator :: List.zipWith ExcludeElement.ofMember ns later :=
  List.zipWith_append hlength

/-- A member gives way to another one about the same column: only its element changes. -/
theorem ofMembers_append_congr (hlength : ms.length = operators.length) {m m' : Member}
    (hcolumn : m'.columnEntry? = m.columnEntry?) (hname : m'.columnName? = m.columnName?)
    (operator : String) (options : ExcludeOptions) (criterion : Option Node) :
    ofMembers (ms ++ m' :: ns) (operators ++ operator :: later) options criterion =
      { ofMembers (ms ++ m :: ns) (operators ++ operator :: later) options criterion with
        elements := List.zipWith ExcludeElement.ofMember ms operators ++
          .ofMember m' operator :: List.zipWith ExcludeElement.ofMember ns later } := by
  have hcolumns : (ms ++ m' :: ns).filterMap Member.columnEntry? =
      (ms ++ m :: ns).filterMap Member.columnEntry? := by
    rw [List.filterMap_append, List.filterMap_append, List.filterMap_cons, List.filterMap_cons,
      hcolumn]
  have hentry : ExcludeElement.operatorEntry? (.ofMember m' operator) =
      ExcludeElement.operatorEntry? (.ofMember m operator) :=
    congrArg (Option.map fun name => (name, operator)) hname
  unfold ofMembers
  simp only [ExcludeConstraint.mk.injEq, and_true]
  refine ⟨zipWith_ofMember_append hlength m' operator, hcolumns, congrArg NameMap.ofList ?_⟩
  rw [zipWith_ofMember_append hlength, zipWith_ofMember_append hlength, List.filterMap_append,
    List.filterMap_append, List.filterMap_cons, List.filterMap_cons, hentry]

/-- **An expression can be given another type before the exclusion is built.** -/
theorem exists_retyped_of_build {first last : List (Argument × String)} {operator : String}
    {options : ExcludeOptions} (h : build (first ++ (.element e, operator) :: last) options = .ok c)
    (type : DataType) :
    ∃ c', build (first ++ (.element (e.typeCoerce type), operator) :: last) options = .ok c' ∧
      Retyped e type c c' := by
  obtain ⟨-, hmethod, members, criterion, hmembers, hcriterion, rfl⟩ := build_eq_ok_iff.mp h
  rw [List.map_append, List.map_cons] at hmembers
  obtain ⟨-, ms, ns, hms, hns, rfl⟩ := readMembers_append_eq_ok_iff.mp hmembers
  have hcoerced : readMembers .ddl
      ((first ++ (.element (e.typeCoerce type), operator) :: last).map (·.1)) =
        .ok (ms ++ .ofNode (e.typeCoerce type) :: ns) := by
    rw [List.map_append, List.map_cons]
    exact readMembers_append_eq_ok_iff.mpr ⟨rfl, ms, ns, hms, hns, rfl⟩
  have hlength : ms.length = (first.map (·.2)).length := by
    rw [List.length_map, ← (forall₂_of_mapM_eq_ok hms).length_eq, List.length_map]
  have hcolumn := e.firstColumn?_typeCoerce type
  have hentry : Member.columnEntry? (.ofNode (e.typeCoerce type)) =
      Member.columnEntry? (.ofNode e) :=
    congrArg (Option.map fun r => Entry.resolved ⟨.column r⟩) hcolumn
  have hname : (Member.ofNode (e.typeCoerce type)).columnName? = (Member.ofNode e).columnName? :=
    congrArg (fun r => (r.map ColumnRef.name).or none) hcolumn
  refine ⟨_, build_eq_ok_iff.mpr ⟨by simp, hmethod, _, criterion, hcoerced, hcriterion, rfl⟩,
    List.zipWith ExcludeElement.ofMember ms (first.map (·.2)), (Member.ofNode e).columnName?,
    operator, List.zipWith ExcludeElement.ofMember ns (last.map (·.2)), ?_, ?_⟩
  · rw [List.map_append, List.map_cons]
    exact zipWith_ofMember_append hlength _ operator
  · rw [List.map_append, List.map_append, List.map_cons, List.map_cons,
      ofMembers_append_congr hlength hentry hname operator options criterion,
      ExcludeElement.ofMember, hname]
    rfl

/-- An exclusion with an expression under another type is settled like the exclusion. -/
theorem Retyped.settle {t : Table} {k : ExcludeConstraint} (h : Retyped e type c c')
    (hk : c.settle t = .ok k) : ∃ k', c'.settle t = .ok k' ∧ Retyped e type k k' := by
  obtain ⟨first, name, operator, last, helements, rfl⟩ := h
  rw [settle_eq, helements, List.mapM_append, List.mapM_cons] at hk
  obtain ⟨elements, hall, hk⟩ := exists_of_bind_eq_ok hk
  obtain ⟨fs, hfs, hall⟩ := exists_of_bind_eq_ok hall
  obtain ⟨rest, hrest, hall⟩ := exists_of_bind_eq_ok hall
  obtain rfl := Except.ok.inj hall
  obtain ⟨x, hx, hrest⟩ := exists_of_bind_eq_ok hrest
  obtain rfl := Except.ok.inj hx
  obtain ⟨ls, hls, hrest⟩ := exists_of_bind_eq_ok hrest
  obtain rfl := Except.ok.inj hrest
  obtain ⟨columns, hcolumns, hk⟩ := exists_of_bind_eq_ok hk
  obtain rfl := Except.ok.inj hk
  refine ⟨_, ?_, fs, name, operator, ls, rfl, rfl⟩
  rw [settle_eq, List.mapM_append, List.mapM_cons, hfs, hls]
  show (c.columns.mapM (·.settle t) >>= _) = _
  rw [hcolumns]
  rfl

/-! ## 3. The texts of the two -/

/-- The pieces of an exclusion around one of its expressions. -/
theorem pieces_of_elements {first last : List ExcludeElement} {x : ExcludeElement}
    (h : c.elements = first ++ x :: last) :
    c.pieces s = do
      let before ← first.mapM fun e => expressionText s c.classes e.expression
      let text ← expressionText s c.classes x.expression
      let after ← last.mapM fun e => expressionText s c.classes e.expression
      return (before ++ text :: after, ← inDefinition s (excludeCriterion c.criterion)) := by
  rw [pieces, h, List.mapM_append, List.mapM_cons]
  simp only [bind_assoc, pure_bind]

/-- A list of texts is put together around one of them. -/
theorem exists_around (separator : String) (after : List String) : ∀ before : List String,
    ∃ left right, ∀ text, separator.intercalate (before ++ text :: after) = left ++ text ++ right
  | [] => by
      cases after with
      | nil => exact ⟨"", "", fun text => by simp⟩
      | cons a after =>
          refine ⟨"", separator ++ separator.intercalate (a :: after), fun text => ?_⟩
          rw [List.nil_append, String.intercalate_cons_cons, String.empty_append,
            String.append_assoc]
  | b :: before => by
      obtain ⟨left, right, h⟩ := exists_around separator after before
      refine ⟨b ++ separator ++ left, right, fun text => ?_⟩
      rw [List.cons_append, String.intercalate_cons_of_ne_nil (by simp), h text]
      simp only [String.append_assoc]

/-- The text of an exclusion around one of its expressions. -/
theorem exists_assemble_around {first last : List ExcludeElement} {x : ExcludeElement}
    (h : c.elements = first ++ x :: last) {before : List String}
    (hlength : before.length = first.length) (after : List String) (criterion : String) :
    ∃ left right, ∀ text,
      c.assemble s (before ++ text :: after, criterion) = left ++ text ++ right := by
  have hoperators : c.elements.map (·.operator) =
      first.map (·.operator) ++ x.operator :: last.map (·.operator) := by
    rw [h, List.map_append, List.map_cons]
  obtain ⟨left, right, haround⟩ := exists_around ", "
    (List.zipWith (· ++ " WITH " ++ ·) after (last.map (·.operator)))
    (List.zipWith (· ++ " WITH " ++ ·) before (first.map (·.operator)))
  refine ⟨c.opening s ++ left, " WITH " ++ x.operator ++ right ++ c.closing criterion,
    fun text => ?_⟩
  show c.opening s ++ ", ".intercalate (List.zipWith _ (before ++ text :: after) _)
    ++ c.closing criterion = _
  rw [hoperators, List.zipWith_append (by rw [hlength, List.length_map]), List.zipWith_cons_cons,
    haround]
  simp only [String.append_assoc]

/-- All but the pieces is the same. -/
theorem Retyped.assemble_eq (h : Retyped e type c c') (s : Settings) :
    c'.assemble s = c.assemble s := by
  obtain ⟨first, name, operator, last, helements, rfl⟩ := h
  funext pieces
  rw [assemble, assemble, helements, List.map_append, List.map_append]
  rfl

end ExcludeConstraint

namespace Compiler

open ExcludeConstraint

variable {e : Node} {type : DataType} {c c' : ExcludeConstraint} {p : Compiler}

/-- The texts of the two exclusions are the same around that of one expression. In the first one it
has its parentheses and its operator class, in the second one it stands bare. -/
def SameButAdornment (p : Compiler) (e : Node) (c c' : ExcludeConstraint) : Prop :=
  ∃ outcome : Except Error (String × String × String),
    (p.constraint (.exclude c)).1 = outcome.map (fun (before, text, after) =>
      before ++ e.adorned c.classes text ++ after) ∧
    (p.constraint (.exclude c')).1 = outcome.map (fun (before, text, after) =>
      before ++ text ++ after) ∧
    ∀ texts, outcome = .ok texts → inDefinition p.settings e.render = .ok texts.2.1

/-- **What the text lacks** with an expression under another type. -/
theorem sameButAdornment_of_retyped (h : Retyped e type c c')
    (hregistry : p.settings.registry = .postgresql) : SameButAdornment p e c c' := by
  have hassemble := h.assemble_eq p.settings
  obtain ⟨first, name, operator, last, helements, rfl⟩ := h
  have hcoercion : p.settings.registry.element? "type_coerce" = some .typeCoerce := by
    rw [hregistry]
    rfl
  rw [SameButAdornment, constraint_exclude hregistry, constraint_exclude hregistry, hassemble,
    pieces_of_elements helements, pieces_of_elements rfl, expressionText_typeCoerce hcoercion,
    expressionText_resolved]
  -- the first piece that fails is the failure of both
  cases hbefore : first.mapM fun e => expressionText p.settings c.classes e.expression with
  | error error => exact ⟨.error error, rfl, rfl, nofun⟩
  | ok before =>
  cases inDefinition p.settings e.render with
  | error error => exact ⟨.error error, rfl, rfl, nofun⟩
  | ok text =>
  cases last.mapM fun e => expressionText p.settings c.classes e.expression with
  | error error => exact ⟨.error error, rfl, rfl, nofun⟩
  | ok after =>
  cases inDefinition p.settings (excludeCriterion c.criterion) with
  | error error => exact ⟨.error error, rfl, rfl, nofun⟩
  | ok criterion =>
      have hlength := (forall₂_of_mapM_eq_ok hbefore).length_eq.symm
      obtain ⟨left, right, haround⟩ :=
        exists_assemble_around (s := p.settings) helements hlength after criterion
      refine ⟨.ok (left, text, right), congrArg Except.ok (haround _),
        congrArg Except.ok (haround text), fun texts htexts => ?_⟩
      rw [← Except.ok.inj htexts]

/-- The texts are the same exactly if there is none, or nothing to lose. -/
theorem constraint_eq_iff_of_sameButAdornment (h : SameButAdornment p e c c') :
    (p.constraint (.exclude c')).1 = (p.constraint (.exclude c)).1 ↔
      (∃ error, (p.constraint (.exclude c)).1 = .error error) ∨
        e.isOperation = false ∧ operatorClass? c.classes e = none := by
  obtain ⟨outcome, hc, hc', -⟩ := h
  rw [hc, hc']
  refine map_eq_map_iff fun ⟨before, text, after⟩ _ => ?_
  show before ++ text ++ after = before ++ e.adorned c.classes text ++ after ↔ _
  rw [String.append_left_inj, String.append_right_inj, eq_comm, Node.adorned_eq_iff]

/-- **When the text of an exclusion stays the same under a coercion.** If one expression is given
another type before the exclusion is built, the exclusion can still be built, and it still attaches
to the same tables. -/
theorem constraint_typeCoerce {first last : List (Argument × String)} {operator : String}
    {options : ExcludeOptions}
    (h : build (first ++ (.element e, operator) :: last) options = .ok c) (type : DataType)
    (hregistry : p.settings.registry = .postgresql) :
    ∃ c', build (first ++ (.element (e.typeCoerce type), operator) :: last) options = .ok c' ∧
      SameButAdornment p e c c' ∧
      ((p.constraint (.exclude c')).1 = (p.constraint (.exclude c)).1 ↔
        (∃ error, (p.constraint (.exclude c)).1 = .error error) ∨
          e.isOperation = false ∧ operatorClass? c.classes e = none) ∧
      ∀ (t : Table) (told : List Notice), (setParent t ⟨c, told⟩).1 = .ok () →
        (setParent t ⟨c', told⟩).1 = .ok () ∧
        SameButAdornment p e (setParent t ⟨c, told⟩).2.value (setParent t ⟨c', told⟩).2.value := by
  obtain ⟨c', hc', hretyped⟩ := exists_retyped_of_build h type
  have hsame := sameButAdornment_of_retyped hretyped hregistry
  refine ⟨c', hc', hsame, constraint_eq_iff_of_sameButAdornment hsame, fun t told hattached => ?_⟩
  obtain ⟨hparent, hk⟩ := settle_of_setParent hattached
  obtain ⟨k', hk', hretyped'⟩ := hretyped.settle hk
  have hparent' : c'.parent = none := by
    obtain ⟨-, -, -, -, -, rfl⟩ := hretyped
    exact hparent
  obtain ⟨hattached', hvalue⟩ := setParent_of_settle hparent' hk' told
  rw [hvalue]
  exact ⟨hattached', sameButAdornment_of_retyped hretyped' hregistry⟩

/-- The end of a booking, from its start and its length. -/
def bookingEnd : Node := (Node.column "start").op .add (Node.column "hours")

/-- The options of an exclusion with an operator class for the room. -/
def roomOptions : ExcludeOptions :=
  { ExcludeOptions.default with classes := .ofList [("room", "int4_ops")] }

/-- The room has an operator class, and so the text is another one if the room is given another
type. -/
theorem constraint_typeCoerce_room :
    let p := postgresql false
    ∃ c c', build [(.element (Node.column "room"), "=")] roomOptions = .ok c ∧
      p.settings.registry = .postgresql ∧
      build [(.element ((Node.column "room").typeCoerce .text), "=")] roomOptions = .ok c' ∧
      (p.constraint (.exclude c')).1 ≠ (p.constraint (.exclude c)).1 := by
  intro p
  obtain ⟨c, hc⟩ : ∃ c,
      build ([] ++ (.element (Node.column "room"), "=") :: []) roomOptions = .ok c := ⟨_, rfl⟩
  have hregistry : p.settings.registry = .postgresql := rfl
  obtain ⟨c', hc', -, hiff, -⟩ := constraint_typeCoerce hc .text hregistry
  refine ⟨c, c', hc, hregistry, hc', fun heq => ?_⟩
  obtain rfl := Except.ok.inj hc
  rcases hiff.mp heq with ⟨error, herror⟩ | ⟨-, hclass⟩
  · rw [constraint_exclude hregistry] at herror
    cases herror
  · cases hclass

/-- **A coercion loses parentheses** that the operator under it is given without it. -/
theorem coercion_loses_parentheses :
    let p := postgresql false
    ∃ c c', build [(.element bookingEnd, "=")] .default = .ok c ∧
      build [(.element (bookingEnd.typeCoerce .integer), "=")] .default = .ok c' ∧
      (p.constraint (.exclude c)).1 = .ok "EXCLUDE USING gist ((start + hours) WITH =)" ∧
      (p.constraint (.exclude c')).1 = .ok "EXCLUDE USING gist (start + hours WITH =)" :=
  ⟨_, _, rfl, rfl, by decide +kernel, by decide +kernel⟩

end Compiler

end SqlClause
