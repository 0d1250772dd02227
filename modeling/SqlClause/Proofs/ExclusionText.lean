import Mathlib.Algebra.GroupWithZero.Nat
import SqlClause.Proofs.Attachment
import SqlClause.Proofs.Definitions

/-!
# The text of an exclusion

The text of an exclusion is put together from the texts of its expressions and that of its
criterion. A name that waits for its table stands there as an identifier, and so does the column
that it gives way to; but only behind the column there is its operator class. So the text of an
exclusion changes when it is attached, unless no name that it waits for has an operator class.

* `RenderM.inDefinition_bind`: what renderings come to in a definition, one after the other;
* `Compiler.constraint_exclude`: the text of an exclusion;
* **`Compiler.constraint_setParent`**: how the text changes when the exclusion is attached;
* `Compiler.attachment_shows_operatorClass`: an exclusion with an operator class to come.
-/

namespace SqlClause

open RenderM

/-! ## 1. What a rendering comes to in a definition -/

namespace RenderM

variable {α β : Type} {s : Settings}

/-- What the rendering comes to in a definition. -/
def inDefinition (s : Settings) (x : RenderM α) : Except Error α := (x s ⟨[], true⟩).1

theorem apply_of_traceless {x : RenderM α} (h : Traceless InDefinition s x) {p : Progress}
    (hp : p.inDdl = true) : x s p = (inDefinition s x, p) := by
  obtain ⟨outcome, h⟩ := h
  rw [inDefinition, (h p hp).1, (h ⟨[], true⟩ rfl).1]

theorem inDefinition_bind {x : RenderM α} (h : Traceless InDefinition s x) (f : α → RenderM β) :
    inDefinition s (x >>= f) = inDefinition s x >>= fun a => inDefinition s (f a) := by
  rw [inDefinition, bind_apply, apply_of_traceless h rfl]
  cases inDefinition s x <;> rfl

theorem inDefinition_mapM {f : α → RenderM β} : ∀ {as : List α},
    (∀ a ∈ as, Traceless InDefinition s (f a)) →
      inDefinition s (as.mapM f) = as.mapM fun a => inDefinition s (f a)
  | [], _ => rfl
  | a :: as, h => by
      have hrest : ∀ b ∈ as, Traceless InDefinition s (f b) :=
        fun b hb => h b (List.mem_cons_of_mem a hb)
      rw [List.mapM_cons, List.mapM_cons, inDefinition_bind (h a List.mem_cons_self)]
      refine congrArg (_ >>= ·) (funext fun b => ?_)
      rw [inDefinition_bind (SameIn.mapM (List.forall₂_same.mpr hrest)), inDefinition_mapM hrest]
      rfl

end RenderM

/-! ## 2. The texts of expressions -/

/-- The operator class behind an expression. -/
def classSuffix (operatorClass : Option String) : String :=
  (operatorClass.map (" " ++ ·)).getD ""

theorem length_classSuffix_eq_zero {operatorClass : Option String} :
    (classSuffix operatorClass).length = 0 ↔ operatorClass = none := by
  cases operatorClass with
  | none => exact iff_of_true rfl rfl
  | some name =>
      refine iff_of_false (fun h => ?_) nofun
      have hlength : (" " ++ name).length = 0 := h
      rw [String.length_append] at hlength
      exact absurd hlength (by simp)

namespace ExcludeConstraint

/-- The text of an expression of an exclusion. -/
def expressionText (s : Settings) (classes : NameMap String) (e : Entry) : Except Error String :=
  inDefinition s (excludeExpression classes e)

variable {s : Settings} {classes : NameMap String}

theorem traceless_excludeExpression (classes : NameMap String) (e : Entry) :
    Traceless InDefinition s (excludeExpression classes e) := by
  cases e with
  | pending name => exact SameIn.quote name
  | resolved n => exact SameIn.bind (Node.sameIn_render rfl) fun _ => SameIn.pure _

theorem expressionText_pending (name : String) :
    expressionText s classes (.pending name) = .ok (s.dialect.quote name) := rfl

theorem expressionText_resolved (n : Node) :
    expressionText s classes (.resolved n) = (inDefinition s n.render).map fun text =>
      enclosed n text ++ classSuffix (operatorClass? classes n) := by
  show inDefinition s (n.render >>= _) = _
  rw [inDefinition_bind (Node.sameIn_render rfl)]
  cases inDefinition s n.render <;> rfl

/-- The column of a table stands like its name, with its operator class behind it. -/
theorem expressionText_column (hcolumn : s.registry.element? "column" = some .column)
    (c : Column) : expressionText s classes (.resolved c.expr) =
      .ok (s.dialect.quote c.name ++ classSuffix (classes.get? c.name)) := by
  have htext : inDefinition s c.expr.render = .ok (s.dialect.quote c.name) := by
    rw [inDefinition, Column.expr, Node.render_of_rule hcolumn]
    show (column c.ref s ⟨[], true⟩).1 = _
    rw [column_apply, Column.ref]
    cases c.table <;> rfl
  rw [expressionText_resolved, htext]
  rfl

/-- The operator class that an entry will have behind it when the name that it waits for has given
way to a column. -/
def classToCome (classes : NameMap String) : Entry → Option String
  | .pending name => classes.get? name
  | .resolved _ => none

theorem classToCome_eq_none_iff {e : Entry} : classToCome classes e = none ↔
    ∀ name, e = .pending name → classes.get? name = none := by
  cases e with
  | pending name =>
      refine ⟨fun h name' heq => ?_, fun h => h name rfl⟩
      obtain rfl := Entry.pending.inj heq
      exact h
  | resolved n => exact iff_of_true rfl nofun

/-- A settled entry has the same text, with the operator class behind it that was to come. -/
theorem expressionText_of_settles {t : Table} {e e' : Entry}
    (hcolumn : s.registry.element? "column" = some .column) (h : Entry.Settles t e e') :
    expressionText s classes e' =
      (expressionText s classes e).map (· ++ classSuffix (classToCome classes e)) := by
  cases h with
  | pending h =>
      obtain ⟨c, hc, rfl⟩ := Option.map_eq_some_iff.mp h
      rw [expressionText_column hcolumn, expressionText_pending, Table.name_of_column? hc]
      rfl
  | @resolved n _ =>
      show _ = (expressionText s classes (.resolved n)).map (· ++ "")
      cases expressionText s classes (.resolved n) with
      | error e => rfl
      | ok text => exact congrArg Except.ok String.append_empty.symm

/-! ## 3. The text of an exclusion -/

/-- The texts of the expressions of an exclusion, in order, and that of its criterion. -/
def pieces (s : Settings) (c : ExcludeConstraint) : Except Error (List String × String) := do
  let expressions ← c.elements.mapM fun e => expressionText s c.classes e.expression
  return (expressions, ← inDefinition s (excludeCriterion c.criterion))

/-- The text of an exclusion before its elements. -/
def opening (s : Settings) (c : ExcludeConstraint) : String :=
  (c.name.map ("CONSTRAINT " ++ s.dialect.quote · ++ " ")).getD "" ++ "EXCLUDE USING "
    ++ lowerCase c.method ++ " ("

/-- The text of an exclusion behind its elements. -/
def closing (c : ExcludeConstraint) (criterion : String) : String :=
  ")" ++ criterion ++ deferrableText c.deferrable ++ (c.initially.map (" INITIALLY " ++ ·)).getD ""

/-- The text of an exclusion from its pieces. -/
def assemble (s : Settings) (c : ExcludeConstraint) (pieces : List String × String) : String :=
  c.opening s ++ ", ".intercalate
    (List.zipWith (· ++ " WITH " ++ ·) pieces.1 (c.elements.map (·.operator)))
    ++ c.closing pieces.2

theorem inDefinition_excludeElement (e : ExcludeElement) :
    inDefinition s (excludeElement classes e) =
      (expressionText s classes e.expression).map (· ++ " WITH " ++ e.operator) := by
  unfold excludeElement
  rw [inDefinition_bind (traceless_excludeExpression classes e.expression)]
  unfold expressionText
  cases inDefinition s (excludeExpression classes e.expression) <;> rfl

/-- What an exclusion comes to in a definition. -/
theorem inDefinition_exclude (c : ExcludeConstraint) :
    inDefinition s (exclude c) = (c.pieces s).map (c.assemble s) := by
  have helement : ∀ e ∈ c.elements, Traceless InDefinition s (excludeElement c.classes e) :=
    fun e _ => traceless_excludeElement c.classes e
  have helements : inDefinition s (joined ", " (c.elements.map (excludeElement c.classes))) =
      (c.elements.mapM fun e => expressionText s c.classes e.expression).map fun expressions =>
        ", ".intercalate
          (List.zipWith (· ++ " WITH " ++ ·) expressions (c.elements.map (·.operator))) := by
    unfold joined
    rw [List.mapM_map, Function.id_comp,
      inDefinition_bind (SameIn.mapM (List.forall₂_same.mpr helement)), inDefinition_mapM helement]
    simp only [inDefinition_excludeElement]
    have htexts := mapM_map_zipWith
      (fun e : ExcludeElement => expressionText s c.classes e.expression)
      (· ++ " WITH " ++ ·) (fun e => e.operator) c.elements
    rw [htexts]
    cases c.elements.mapM fun e => expressionText s c.classes e.expression <;> rfl
  have hname : inDefinition s (constraintName c.name) =
      .ok ((c.name.map ("CONSTRAINT " ++ s.dialect.quote · ++ " ")).getD "") := by
    cases c.name <;> rfl
  unfold exclude pieces
  rw [inDefinition_bind (SameIn.joined ", " (List.forall₂_same.mpr helement)), helements]
  cases c.elements.mapM fun e => expressionText s c.classes e.expression with
  | error e => rfl
  | ok expressions =>
      show inDefinition s (constraintName c.name >>= _) = _
      rw [inDefinition_bind (traceless_constraintName c.name), hname]
      show inDefinition s (excludeCriterion c.criterion >>= _) = _
      rw [inDefinition_bind (traceless_excludeCriterion c.criterion)]
      cases inDefinition s (excludeCriterion c.criterion) with
      | error e => rfl
      | ok criterion =>
          refine congrArg Except.ok ?_
          simp only [assemble, opening, closing, String.append_assoc]

end ExcludeConstraint

/-- There is a text for every element. -/
theorem ExcludeConstraint.length_of_pieces {s : Settings} {c : ExcludeConstraint}
    {pieces : List String × String} (h : c.pieces s = .ok pieces) :
    pieces.1.length = c.elements.length := by
  obtain ⟨expressions, hexpressions, h⟩ := exists_of_bind_eq_ok h
  obtain ⟨criterion, -, h⟩ := exists_of_bind_eq_ok h
  obtain rfl := Except.ok.inj h
  exact (forall₂_of_mapM_eq_ok hexpressions).length_eq.symm

/-- **The text of an exclusion**, by a compiler that has the rules of PostgreSQL. -/
theorem Compiler.constraint_exclude {p : Compiler} (h : p.settings.registry = .postgresql)
    (c : ExcludeConstraint) :
    (p.constraint (.exclude c)).1 = (c.pieces p.settings).map (c.assemble p.settings) := by
  have hrule : constraintRule "exclude_constraint" p.settings p.progress =
      (.ok .exclude, p.progress) := by
    unfold constraintRule
    rw [bind_apply, read_apply]
    simp only [h]
    rfl
  rw [← ExcludeConstraint.inDefinition_exclude]
  show (Constraint.render (.exclude c) p.settings p.progress).1 = _
  unfold Constraint.render
  rw [bind_apply]
  simp only [Constraint.tag, hrule]
  show (exclude c p.settings { p.progress with inDdl := true }).1 = _
  rw [apply_of_traceless (traceless_exclude c) rfl]

/-! ## 4. Lengths -/

theorem length_intercalate (separator : String) : ∀ texts : List String,
    (separator.intercalate texts).length =
      (texts.map String.length).sum + separator.length * (texts.length - 1)
  | [] => by simp
  | [text] => by simp
  | a :: b :: texts => by
      rw [String.intercalate_cons_cons, String.length_append, String.length_append,
        length_intercalate separator (b :: texts)]
      simp only [List.map_cons, List.sum_cons, List.length_cons, Nat.add_sub_cancel, Nat.mul_succ]
      omega

/-- What is added to texts one by one adds to their lengths. -/
theorem sum_length_zipWith {g : String → String → String} {added : String → Nat}
    (hg : ∀ text key, (g text key).length = text.length + added key) :
    ∀ {texts keys : List String}, texts.length = keys.length →
      ((List.zipWith g texts keys).map String.length).sum =
        (texts.map String.length).sum + (keys.map added).sum
  | [], [], _ => rfl
  | text :: texts, key :: keys, h => by
      have hrest := sum_length_zipWith hg (Nat.succ.inj h)
      rw [List.zipWith_cons_cons, List.map_cons, List.sum_cons, hrest, hg]
      simp only [List.map_cons, List.sum_cons]
      omega

namespace ExcludeConstraint

/-- **How long an exclusion is** depends on how long its expressions are together. -/
theorem length_assemble (s : Settings) (c : ExcludeConstraint) (criterion : String) :
    ∃ rest, ∀ expressions : List String, expressions.length = c.elements.length →
      (c.assemble s (expressions, criterion)).length =
        (expressions.map String.length).sum + rest := by
  have hwith (text operator : String) : (text ++ " WITH " ++ operator).length =
      text.length + (" WITH ".length + operator.length) := by
    rw [String.length_append, String.length_append, Nat.add_assoc]
  let operators := c.elements.map (·.operator)
  refine ⟨(c.opening s).length + (operators.map (" WITH ".length + ·.length)).sum
    + ", ".length * (c.elements.length - 1) + (c.closing criterion).length, fun expressions h => ?_⟩
  have hoperators : expressions.length = operators.length := by rw [List.length_map, h]
  show (c.opening s ++ _ ++ c.closing criterion).length = _
  rw [String.length_append, String.length_append, length_intercalate,
    sum_length_zipWith hwith hoperators, List.length_zipWith, ← hoperators, Nat.min_self, h]
  omega

/-! ## 5. Attachment -/

/-- What comes behind the expressions of an exclusion when it is attached. -/
def suffixesToCome (c : ExcludeConstraint) : List String :=
  c.elements.map fun e => classSuffix (classToCome c.classes e.expression)

variable {c k : ExcludeConstraint} {t : Table}

/-- The pieces of a settled exclusion are those of the exclusion, with what was to come. -/
theorem pieces_of_settle (hcolumn : s.registry.element? "column" = some .column)
    (h : c.settle t = .ok k) :
    k.pieces s = (c.pieces s).map fun pieces =>
      (List.zipWith (· ++ ·) pieces.1 c.suffixesToCome, pieces.2) := by
  obtain ⟨elements, columns, helements, -, rfl⟩ := exists_of_settle h
  have htexts : (elements.mapM fun e => expressionText s c.classes e.expression) =
      (c.elements.mapM fun e => expressionText s c.classes e.expression).map
        (List.zipWith (· ++ ·) · c.suffixesToCome) := by
    have hsettled : elements.map (fun e => expressionText s c.classes e.expression) =
        c.elements.map fun e => (expressionText s c.classes e.expression).map
          (· ++ classSuffix (classToCome c.classes e.expression)) :=
      (map_eq_of_forall₂ (fun {e e'} he => (expressionText_of_settles hcolumn he.1).symm)
        helements).symm
    have htogether := congrArg (List.mapM id) hsettled
    rw [List.mapM_map, List.mapM_map] at htogether
    exact htogether.trans (mapM_map_zipWith
      (fun e : ExcludeElement => expressionText s c.classes e.expression) (· ++ ·)
      (fun e => classSuffix (classToCome c.classes e.expression)) c.elements)
  unfold pieces
  rw [htexts]
  cases c.elements.mapM fun e => expressionText s c.classes e.expression with
  | error e => rfl
  | ok expressions => cases inDefinition s (excludeCriterion c.criterion) <;> rfl

theorem assemble_of_settle (h : c.settle t = .ok k) : k.assemble s = c.assemble s := by
  obtain ⟨elements, columns, helements, -, rfl⟩ := exists_of_settle h
  have hoperators : elements.map (·.operator) = c.elements.map (·.operator) :=
    (map_eq_of_forall₂ (fun he => he.2.2.symm) helements).symm
  funext pieces
  show c.opening s ++ ", ".intercalate (List.zipWith _ _ (elements.map (·.operator))) ++ _ = _
  rw [hoperators]
  rfl

/-- Something is added to the text of an exclusion unless nothing is to come. -/
theorem assemble_suffixed_eq_iff {expressions : List String}
    (h : expressions.length = c.elements.length) (criterion : String) :
    c.assemble s (List.zipWith (· ++ ·) expressions c.suffixesToCome, criterion) =
        c.assemble s (expressions, criterion) ↔
      ∀ e ∈ c.elements, classToCome c.classes e.expression = none := by
  have hsuffixes : expressions.length = c.suffixesToCome.length := by
    rw [suffixesToCome, List.length_map, h]
  constructor
  · intro heq e he
    obtain ⟨rest, hlength⟩ := c.length_assemble s criterion
    have happend (text suffix : String) : (text ++ suffix).length = text.length + suffix.length :=
      String.length_append text suffix
    have hsum := congrArg String.length heq
    rw [hlength _ (by rw [List.length_zipWith, ← hsuffixes, Nat.min_self, h]), hlength _ h,
      sum_length_zipWith happend hsuffixes] at hsum
    have hzero : (c.suffixesToCome.map String.length).sum = 0 := by omega
    have hsuffix : classSuffix (classToCome c.classes e.expression) ∈ c.suffixesToCome :=
      List.mem_map_of_mem he
    exact length_classSuffix_eq_zero.mp
      (List.sum_eq_zero_iff_forall_eq_nat.mp hzero _ (List.mem_map_of_mem hsuffix))
  · intro hnone
    have hempty : c.suffixesToCome = c.elements.map fun _ => "" :=
      List.map_congr_left fun e he => by rw [hnone e he]; rfl
    have hsame : List.zipWith (· ++ ·) expressions c.suffixesToCome = expressions := by
      refine List.ext_getElem (by rw [List.length_zipWith, ← hsuffixes, Nat.min_self]) ?_
      intro i _ _
      simp only [List.getElem_zipWith, hempty, List.getElem_map, String.append_empty]
    rw [hsame]

end ExcludeConstraint

namespace Compiler

open ExcludeConstraint

variable {c : ExcludeConstraint} {t : Table} {told : List Notice} {p : Compiler}

/-- **How the text of an exclusion changes when it is attached.** It can be rendered afterwards
exactly if it could be rendered before, and fails in the same way. What is added to the text is the
operator class behind each name that the exclusion has waited for, where the name has one. So the
text is the same as before exactly if there is none, or if no such name has an operator class. -/
theorem constraint_setParent (h : (setParent t ⟨c, told⟩).1 = .ok ())
    (hregistry : p.settings.registry = .postgresql) :
    let k := (setParent t ⟨c, told⟩).2.value
    (p.constraint (.exclude c)).1 = (c.pieces p.settings).map (c.assemble p.settings) ∧
    (p.constraint (.exclude k)).1 = (c.pieces p.settings).map (fun pieces =>
      c.assemble p.settings (List.zipWith (· ++ ·) pieces.1 c.suffixesToCome, pieces.2)) ∧
    ((p.constraint (.exclude k)).1 = (p.constraint (.exclude c)).1 ↔
      (∃ e, (p.constraint (.exclude c)).1 = .error e) ∨
      ∀ e ∈ c.elements, ∀ name, e.expression = .pending name → c.classes.get? name = none) := by
  intro k
  have hk : c.settle t = .ok k := (settle_of_setParent h).2
  have hbefore := constraint_exclude hregistry c
  have hafter : (p.constraint (.exclude k)).1 = (c.pieces p.settings).map fun pieces =>
      c.assemble p.settings (List.zipWith (· ++ ·) pieces.1 c.suffixesToCome, pieces.2) := by
    have hcolumn : p.settings.registry.element? "column" = some .column := by
      rw [hregistry]
      rfl
    rw [constraint_exclude hregistry k, pieces_of_settle hcolumn hk, assemble_of_settle hk]
    cases c.pieces p.settings <;> rfl
  refine ⟨hbefore, hafter, ?_⟩
  rw [hbefore, hafter]
  refine map_eq_map_iff fun pieces hpieces => ?_
  have hsame := assemble_suffixed_eq_iff (s := p.settings) (length_of_pieces hpieces) pieces.2
  simp only [classToCome_eq_none_iff] at hsame
  exact hsame

/-- A table of bookings, by the room. -/
def roomTable : Table := (Table.ofName "booking").addColumn (.ofType "room" .integer)

/-- No room is booked twice. The room is given by its name and has an operator class. -/
def oneBooking : ExcludeConstraint :=
  .ofMembers [.ofName "room"] ["="]
    { ExcludeOptions.default with classes := .ofList [("room", "int4_ops")] } none

/-- The exclusion can be attached and rendered, and has another text afterwards. -/
theorem constraint_setParent_oneBooking :
    let p := postgresql false
    let k := (setParent roomTable ⟨oneBooking, []⟩).2.value
    (setParent roomTable ⟨oneBooking, []⟩).1 = .ok () ∧ p.settings.registry = .postgresql ∧
      (p.constraint (.exclude k)).1 ≠ (p.constraint (.exclude oneBooking)).1 := by
  intro p k
  have hattached : (setParent roomTable ⟨oneBooking, []⟩).1 = .ok () := rfl
  have hregistry : p.settings.registry = .postgresql := rfl
  obtain ⟨hbefore, -, hsame⟩ := constraint_setParent hattached hregistry
  refine ⟨hattached, hregistry, fun heq => ?_⟩
  rcases hsame.mp heq with ⟨e, herror⟩ | hnone
  · rw [hbefore] at herror
    cases herror
  · have hclass := hnone _ List.mem_cons_self "room" rfl
    cases hclass

/-- **Attachment brings out an operator class** that the exclusion has had from the start. -/
theorem attachment_shows_operatorClass :
    let p := postgresql false
    ExcludeConstraint.build [(.value (.text "room"), "=")]
        { ExcludeOptions.default with classes := .ofList [("room", "int4_ops")] } =
          .ok oneBooking ∧
      (setParent roomTable ⟨oneBooking, []⟩).1 = .ok () ∧
      (p.constraint (.exclude oneBooking)).1 = .ok "EXCLUDE USING gist (room WITH =)" ∧
      (p.constraint (.exclude (setParent roomTable ⟨oneBooking, []⟩).2.value)).1 =
        .ok "EXCLUDE USING gist (room int4_ops WITH =)" :=
  ⟨rfl, rfl, by decide +kernel, by decide +kernel⟩

end Compiler

end SqlClause
