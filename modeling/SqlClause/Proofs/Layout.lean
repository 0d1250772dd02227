import SqlClause.Proofs.Preorder
import SqlClause.Render.Element

/-!
# Layouts

The layout of a clause says what its text is made of and in which order: fixed texts, values, and
the texts of its parts. Every rule of the renderer works off the layout of its clause from left to
right (`ElementRule.apply_of_mem`), and all that the layout depends on, apart from the clause, is
the `Style`: how identifiers are quoted, whether there is `DISTINCT ON`, and whether a definition
is being rendered. What can be told from layouts holds of every rule at once.

* `Layout.run`: doing a layout, from left to right;
* **`ElementRule.apply_of_mem`**: a rule does the layout of a clause that it is for;
* `Clause.layout_map`: layouts follow the parts;
* **`Clause.gather_layout_perm`**: every part that is shown has its place, and one place only.
-/

namespace SqlClause

/-! ## 1. Pieces and segments -/

/-- A piece of a text: fixed, or the place of a value. -/
inductive Piece where
  | text (s : String)
  | value (v : Value)
deriving DecidableEq

/-- A segment of a layout: a piece, or the text of a part. -/
inductive Segment (α : Type) where
  | piece (p : Piece)
  | part (a : α)

/-- What the text of a clause is made of, from left to right. -/
abbrev Layout (α : Type) := List (Segment α)

namespace Layout

variable {α β : Type}

def fixed (s : String) : Layout α := [.piece (.text s)]

def bound (v : Value) : Layout α := [.piece (.value v)]

def part (a : α) : Layout α := [.part a]

/-- Parts with a text between them. -/
def separated (separator : String) : List α → Layout α
  | [] => []
  | [a] => part a
  | a :: b :: rest => part a ++ fixed separator ++ separated separator (b :: rest)

/-- Does a layout from left to right. -/
def run : Layout (RenderM String) → RenderM String
  | [] => return ""
  | .piece (.text s) :: rest => return s ++ (← run rest)
  | .piece (.value v) :: rest => return (← RenderM.bindValue v) ++ (← run rest)
  | .part x :: rest => return (← x) ++ (← run rest)

/-- The layout with `f` done to its parts. -/
def map (f : α → β) (l : Layout α) : Layout β :=
  List.map (fun | .piece p => .piece p | .part a => .part (f a)) l

/-- The layout with blanks in the place of its values. -/
def blank (l : Layout α) : Layout α :=
  List.map (fun | .piece (.value _) => .piece (.value .null) | s => s) l

/-- What comes from the values and from the parts of a layout, from left to right. -/
def gather (own : Value → List β) (f : α → List β) (l : Layout α) : List β :=
  l.flatMap fun
    | .piece (.text _) => []
    | .piece (.value v) => own v
    | .part a => f a

/-- The parts of a layout, from left to right. -/
def parts (l : Layout α) : List α := l.gather (fun _ => []) ([·])

/-- The values of a layout itself, from left to right. -/
def values (l : Layout α) : List Value := l.gather ([·]) (fun _ => [])

end Layout

/-! ## 2. The layout of a clause -/

/-- What layouts depend on. -/
structure Style where
  quote : String → String
  supportsDistinctOn : Bool
  registry : Registry
  inDdl : Bool

/-- The style of a session in which a definition is being rendered or not. -/
def Settings.style (s : Settings) (inDdl : Bool) : Style :=
  ⟨s.dialect.quote, s.dialect.supportsDistinctOn, s.registry, inDdl⟩

namespace Style

/-- A relation with its schema in front. -/
def relation (σ : Style) (r : Relation) : String :=
  match r.schema with
  | some schema => σ.quote schema ++ "." ++ σ.quote r.name
  | none => σ.quote r.name

/-- A column: its name, in statements with the table in front. -/
def column (σ : Style) (c : ColumnRef) : String :=
  if c.literal then c.name
  else match c.table with
    | none => σ.quote c.name
    | some table =>
        if σ.inDdl then σ.quote c.name else σ.relation table ++ "." ++ σ.quote c.name

end Style

namespace Layout

variable {α : Type}

/-- `DISTINCT` or `DISTINCT ON` with its terms, where there is such a thing. -/
def distinctWord (σ : Style) (s : Select α) : Layout α :=
  if !s.distinctOn.isEmpty && σ.supportsDistinctOn then
    fixed "DISTINCT ON (" ++ separated ", " s.distinctOn ++ fixed ") "
  else fixed (if s.distinct then "DISTINCT " else "")

/-- Clauses with a blank after each of them. -/
def clausesBefore (parts : List α) : Layout α := parts.flatMap fun a => part a ++ fixed " "

/-- Clauses with a blank before each of them. -/
def clausesAfter (parts : List α) : Layout α := parts.flatMap fun a => fixed " " ++ part a

def selectList (columns : List α) : Layout α :=
  if columns.isEmpty then fixed "*" else separated ", " columns

/-- A list of terms behind its words, if there are terms. -/
def termList (words : String) (terms : List α) : Layout α :=
  if terms.isEmpty then fixed "" else fixed words ++ separated ", " terms

/-- The relations that a statement selects from. -/
def fromText (σ : Style) (sources : List Relation) : String :=
  if sources.isEmpty then "" else " FROM " ++ ", ".intercalate (sources.map σ.relation)

def criterion : Option α → Layout α
  | none => fixed ""
  | some c => fixed " WHERE " ++ part c

/-- A statement, in the order of its text. -/
def select (σ : Style) (sources : List Relation) (s : Select α) : Layout α :=
  fixed "SELECT " ++ distinctWord σ s ++ clausesBefore s.preColumns ++ selectList s.columns
    ++ fixed (fromText σ sources) ++ criterion s.criterion ++ clausesAfter s.postCriteria
    ++ termList " GROUP BY " s.groupBy ++ termList " ORDER BY " s.orderBy
    ++ fixed (RenderM.numberText " LIMIT " s.limit ++ RenderM.numberText " OFFSET " s.offset)
    ++ clausesAfter s.postBody

end Layout

namespace Clause

variable {α β : Type}

/-- The rules that are for clauses of this kind. -/
def rules : Clause α → List ElementRule
  | column _ => [.column]
  | bind _ => [.bind, .castingBind]
  | text _ => [.text]
  | keyword _ => [.keyword]
  | binary .. => [.binary]
  | unary .. => [.unary]
  | list .. => [.list]
  | grouping _ => [.grouping]
  | function .. => [.function]
  | cast .. => [.cast]
  | typeCoerce .. => [.typeCoerce]
  | label .. => [.label]
  | select _ => [.select]
  | hint _ => [.hint]
  | orderedAggregate .. => [.orderedAggregate]
  | distinctOn _ => [.distinctOn]
  | custom .. => []

open Layout in
/-- The layout of a clause. With `casting`, a text search configuration is cast to its type;
`sources` are the relations that a statement selects from. -/
def layout (σ : Style) (casting : Bool) (sources : List Relation) : Clause α → Layout α
  | column c => fixed (σ.column c)
  | bind p =>
      bound p.value ++ fixed (if casting && p.type.isRegconfig then "::" ++ p.type.toSql else "")
  | text sql => fixed sql
  | keyword k => fixed k.sql
  | binary left op right _ => part left ++ fixed op.separator ++ part right
  | unary element op modifier =>
      fixed ((op.map (·.sql ++ " ")).getD "") ++ part element
        ++ fixed ((modifier.map (" " ++ ·.sql)).getD "")
  | list clauses op => separated op.separator clauses
  | grouping element => fixed "(" ++ part element ++ fixed ")"
  | function name arguments _ =>
      fixed (name ++ "(") ++ separated ", " arguments ++ fixed ")"
  | cast element type =>
      fixed "CAST(" ++ part element ++ fixed (" AS " ++ type.toSql ++ ")")
  | typeCoerce element _ => part element
  | label name element => part element ++ fixed (" AS " ++ σ.quote name)
  | select s => Layout.select σ sources s
  | hint element => part element
  | orderedAggregate target _ orderBy => part target ++ fixed " ORDER BY " ++ part orderBy
  | distinctOn terms => fixed "ON (" ++ separated ", " terms ++ fixed ")"
  | custom .. => []

end Clause

/-! ## 3. Doing a layout -/

namespace RenderM

variable {α β : Type}

theorem bind_at (x : RenderM α) (f : α → RenderM β) (s : Settings) :
    (x >>= f) s = x s >>= fun a => f a s := rfl

theorem pure_at (a : α) (s : Settings) : (pure a : RenderM α) s = pure a := rfl

theorem quote_at (name : String) (s : Settings) : quote name s = pure (s.dialect.quote name) := rfl

theorem relation_at (r : Relation) (s : Settings) (inDdl : Bool) :
    relation r s = pure ((s.style inDdl).relation r) := by
  rcases r with ⟨_ | schema, name⟩ <;> rfl

end RenderM

namespace Layout

open RenderM

@[simp] theorem run_nil : run [] = pure "" := rfl

@[simp] theorem run_fixed (s : String) : run (fixed s) = pure s := by
  simp [run, fixed]

@[simp] theorem run_bound (v : Value) : run (bound v) = bindValue v := by
  simp [run, bound]

@[simp] theorem run_part (x : RenderM String) : run (part x) = x := by
  simp [run, part]

/-- A layout is done by doing one part of it and then the other. -/
theorem run_append (l m : Layout (RenderM String)) :
    run (l ++ m) = do return (← run l) ++ (← run m) := by
  induction l with
  | nil => simp only [List.nil_append, run, pure_bind, String.empty_append, bind_pure]
  | cons segment l ih =>
      rcases segment with (s | v) | x <;>
        simp only [List.cons_append, run, ih, bind_assoc, pure_bind, String.append_assoc]

theorem joined_cons_cons (separator : String) (x y : RenderM String)
    (rest : List (RenderM String)) :
    joined separator (x :: y :: rest) = do
      let text ← x
      return text ++ separator ++ (← joined separator (y :: rest)) := by
  simp [joined]

/-- Parts are joined by doing them from left to right. -/
theorem joined_eq_run (separator : String) :
    ∀ parts : List (RenderM String), joined separator parts = run (separated separator parts)
  | [] => by simp [joined, separated]
  | [x] => by simp [joined, separated]
  | x :: y :: rest => by
      rw [joined_cons_cons, joined_eq_run separator (y :: rest), separated, run_append, run_append]
      simp

/-- Texts that are joined without more come from layouts that stand one after the other. -/
theorem run_flatMap {g : RenderM String → Layout (RenderM String)} {around : String → String}
    (hg : ∀ x, run (g x) = do return around (← x)) (parts : List (RenderM String)) :
    run (parts.flatMap g) = do return String.join ((← parts.mapM id).map around) := by
  induction parts with
  | nil => simp
  | cons x parts ih =>
      rw [List.flatMap_cons, run_append, hg, ih]
      simp

theorem clausesBefore_eq_run (parts : List (RenderM String)) :
    RenderM.clausesBefore parts = run (clausesBefore parts) := by
  have hclause : ∀ x, run (part x ++ fixed " ") = do return (← x) ++ " " := by
    intro x
    rw [run_append, run_part, run_fixed]
    simp only [pure_bind]
  exact (run_flatMap hclause parts).symm

theorem clausesAfter_eq_run (parts : List (RenderM String)) :
    RenderM.clausesAfter parts = run (clausesAfter parts) := by
  have hclause : ∀ x, run (fixed " " ++ part x) = do return " " ++ (← x) := by
    intro x
    rw [run_append, run_part, run_fixed, pure_bind]
  exact (run_flatMap hclause parts).symm

theorem selectList_eq_run (columns : List (RenderM String)) :
    RenderM.selectList columns = run (selectList columns) := by
  unfold RenderM.selectList selectList
  split
  · rw [run_fixed]
  · rw [joined_eq_run]

theorem termList_eq_run (words : String) (terms : List (RenderM String)) :
    RenderM.termList words terms = run (termList words terms) := by
  unfold RenderM.termList termList
  split
  · rw [run_fixed]
  · rw [joined_eq_run, run_append, run_fixed, pure_bind]

theorem criterionText_eq_run (criterion : Option (RenderM String)) :
    criterionText criterion = run (Layout.criterion criterion) := by
  cases criterion with
  | none => rw [Layout.criterion, run_fixed]; rfl
  | some c =>
      rw [Layout.criterion, run_append, run_fixed, run_part, pure_bind]
      rfl

end Layout

/-! ## 4. Rules do layouts -/

namespace Layout

open RenderM

variable (s : Settings) (inDdl : Bool)

theorem distinctWord_at (st : Select (RenderM String)) :
    RenderM.distinctWord st s = run (distinctWord (s.style inDdl) st) s := by
  have hread : RenderM.distinctWord st s =
      (if !st.distinctOn.isEmpty && s.dialect.supportsDistinctOn then do
        return "DISTINCT ON (" ++ (← joined ", " st.distinctOn) ++ ") "
      else return if st.distinct then "DISTINCT " else "" : RenderM String) s := by
    unfold RenderM.distinctWord
    cases st.distinctOn.isEmpty <;> rfl
  have hsupports : (s.style inDdl).supportsDistinctOn = s.dialect.supportsDistinctOn := rfl
  rw [hread, distinctWord, hsupports]
  split
  · rw [run_append, run_append, run_fixed, run_fixed, joined_eq_run]
    simp only [pure_bind, bind_assoc, String.append_assoc]
  · rw [run_fixed]

/-- The relations after `FROM` are written without further ado. -/
theorem fromList_at (sources : List Relation) :
    RenderM.termList " FROM " (sources.map relation) s =
      pure (fromText (s.style inDdl) sources) := by
  have hall : ∀ sources : List Relation, (sources.map relation).mapM id s =
      pure (sources.map (s.style inDdl).relation) := by
    intro sources
    induction sources with
    | nil => rfl
    | cons r sources ih =>
        simp only [List.map_cons, List.mapM_cons, bind_at, id, relation_at r s inDdl, pure_bind, ih]
        rfl
  cases sources with
  | nil => rfl
  | cons r sources =>
      have hnonempty : ((r :: sources).map relation).isEmpty = false := rfl
      rw [RenderM.termList, hnonempty, if_neg Bool.false_ne_true, joined]
      simp only [bind_at, pure_at, hall, pure_bind]
      rfl

/-- A statement is rendered by doing its layout. -/
theorem select_at (sources : List Relation) (st : Select (RenderM String)) :
    RenderM.select sources st s = run (select (s.style inDdl) sources st) s := by
  unfold RenderM.select select
  simp only [clausesBefore_eq_run, clausesAfter_eq_run, selectList_eq_run,
    termList_eq_run " GROUP BY ", termList_eq_run " ORDER BY ",
    criterionText_eq_run, bind_at, distinctWord_at s inDdl, fromList_at s inDdl, run_append,
    run_fixed, pure_at, pure_bind, bind_assoc, String.append_assoc]

end Layout

namespace RenderM

variable (s : Settings) (p : Progress)

theorem column_apply (c : ColumnRef) : column c s p = (.ok ((s.style p.inDdl).column c), p) := by
  rcases c with ⟨name, table, type, literal⟩
  cases literal with
  | true => rfl
  | false =>
      cases table with
      | none => rfl
      | some table =>
          rcases p with ⟨params, inDdl⟩
          rcases table with ⟨schema, tableName⟩
          cases inDdl <;> cases schema <;> rfl

/-- A bound value has its cast behind it, if it has one. -/
theorem castingBind_at (q : BindParam) :
    castingBind q s = (do
      let text ← bindValue q.value s
      return text ++ if q.type.isRegconfig then "::" ++ q.type.toSql else "") := by
  unfold castingBind
  rw [bind_at]
  cases q.type.isRegconfig with
  | true => simp only [if_true, pure_at, String.append_assoc]
  | false => simp only [Bool.false_eq_true, if_false, pure_at, String.append_empty]

end RenderM

namespace ElementRule

open Layout

/-- A rule refuses the clauses that it is not for. -/
theorem apply_of_not_mem {rule : ElementRule} {sources : List Relation}
    {c : Clause (RenderM String)} (h : rule ∉ c.rules) :
    rule.apply sources c = throw (.wrongClause c.tag) := by
  unfold apply
  split <;> first | rfl | exact absurd (by simp [Clause.rules]) h

/-- **A rule does the layout of a clause that it is for.** -/
theorem apply_of_mem {rule : ElementRule} {sources : List Relation} {c : Clause (RenderM String)}
    (h : rule ∈ c.rules) (s : Settings) (p : Progress) :
    rule.apply sources c s p =
      run (c.layout (s.style p.inDdl) (rule == .castingBind) sources) s p := by
  cases c with
  | column c =>
      obtain rfl := List.mem_singleton.mp h
      rw [Clause.layout, run_fixed]
      exact RenderM.column_apply s p c
  | bind q =>
      rw [Clause.layout, run_append, run_bound, run_fixed]
      rcases List.mem_cons.mp h with rfl | h
      · have hplain : (ElementRule.bind == .castingBind) = false := rfl
        simp only [hplain, Bool.false_and, Bool.false_eq_true, if_false, String.append_empty,
          pure_bind, bind_pure]
        rfl
      · obtain rfl := List.mem_singleton.mp h
        have hcasting : (ElementRule.castingBind == .castingBind) = true := rfl
        simp only [hcasting, Bool.true_and, pure_bind]
        exact congrFun (RenderM.castingBind_at s q) p
  | label name element =>
      obtain rfl := List.mem_singleton.mp h
      have hlabel : label.apply sources (.label name element) s =
          run (part element ++ fixed (" AS " ++ (s.style p.inDdl).quote name)) s := by
        simp only [apply, run_append, run_part, run_fixed, RenderM.bind_at, RenderM.quote_at,
          pure_bind, String.append_assoc]
        rfl
      exact congrFun hlabel p
  | select st =>
      obtain rfl := List.mem_singleton.mp h
      exact congrFun (select_at s p.inDdl sources st) p
  | custom => cases h
  | text | keyword =>
      obtain rfl := List.mem_singleton.mp h
      rw [Clause.layout, run_fixed]
      rfl
  | list | distinctOn | function =>
      obtain rfl := List.mem_singleton.mp h
      simp only [Clause.layout, apply, joined_eq_run, run_append, run_fixed, pure_bind, bind_assoc,
        String.append_assoc]
  | _ =>
      obtain rfl := List.mem_singleton.mp h
      simp only [Clause.layout, apply, run_append, run_part, run_fixed, pure_bind, bind_assoc,
        String.append_assoc]

end ElementRule

/-! ## 5. Layouts over other parts -/

namespace Layout

variable {α β γ : Type}

theorem map_map (f : α → β) (g : β → γ) (l : Layout α) :
    (l.map f).map g = l.map (g ∘ f) := by
  rw [map, map, map, List.map_map]
  refine congrArg (List.map · l) (funext fun segment => ?_)
  cases segment <;> rfl

/-- Functions that are alike on the parts of a layout do the same to it. -/
theorem map_congr {f g : α → β} : ∀ {l : Layout α}, (∀ a ∈ l.parts, f a = g a) → l.map f = l.map g
  | [], _ => rfl
  | .piece (.text _) :: rest, h => congrArg _ (map_congr (l := rest) h)
  | .piece (.value _) :: rest, h => congrArg _ (map_congr (l := rest) h)
  | .part a :: rest, h => by
      have hrest := map_congr (l := rest) fun b hb => h b (List.mem_cons_of_mem a hb)
      show Segment.part (f a) :: map f rest = Segment.part (g a) :: map g rest
      rw [h a List.mem_cons_self, hrest]

theorem map_append (f : α → β) (l m : Layout α) : map f (l ++ m) = map f l ++ map f m :=
  List.map_append

@[simp] theorem map_fixed (f : α → β) (s : String) : map f (fixed s) = fixed s := rfl

theorem map_separated (f : α → β) (separator : String) :
    ∀ as : List α, map f (separated separator as) = separated separator (as.map f)
  | [] => rfl
  | [_] => rfl
  | a :: b :: rest => by
      rw [separated, map_append, map_append, map_separated f separator (b :: rest)]
      rfl

theorem map_flatMap (f : α → β) (g : α → Layout α) (as : List α) :
    map f (as.flatMap g) = as.flatMap fun a => map f (g a) :=
  List.map_flatMap

theorem map_clausesBefore (f : α → β) (as : List α) :
    map f (clausesBefore as) = clausesBefore (as.map f) := by
  rw [clausesBefore, clausesBefore, map_flatMap, List.flatMap_map]
  rfl

theorem map_clausesAfter (f : α → β) (as : List α) :
    map f (clausesAfter as) = clausesAfter (as.map f) := by
  rw [clausesAfter, clausesAfter, map_flatMap, List.flatMap_map]
  rfl

theorem map_selectList (f : α → β) (as : List α) :
    map f (selectList as) = selectList (as.map f) := by
  cases as with
  | nil => rfl
  | cons a as => exact map_separated f ", " (a :: as)

theorem map_termList (f : α → β) (words : String) (as : List α) :
    map f (termList words as) = termList words (as.map f) := by
  cases as with
  | nil => rfl
  | cons a as => exact congrArg _ (map_separated f ", " (a :: as))

theorem map_distinctWord (f : α → β) (σ : Style) (s : Select α) :
    map f (distinctWord σ s) = distinctWord σ (s.map f) := by
  have hempty : (s.map f).distinctOn.isEmpty = s.distinctOn.isEmpty := List.isEmpty_map
  unfold distinctWord
  rw [hempty]
  split
  · rw [map_append, map_append, map_separated]
    rfl
  · rfl

theorem map_select (f : α → β) (σ : Style) (sources : List Relation) (s : Select α) :
    map f (select σ sources s) = select σ sources (s.map f) := by
  have hcriterion : map f (criterion s.criterion) = criterion (s.criterion.map f) := by
    cases s.criterion <;> rfl
  simp only [select, map_append, map_fixed, map_distinctWord, map_clausesBefore,
    map_clausesAfter, map_selectList, map_termList, hcriterion]
  rfl

end Layout

namespace Clause

open Layout

variable {α β : Type}

@[simp] theorem rules_map (f : α → β) (c : Clause α) : (c.map f).rules = c.rules := by
  cases c <;> rfl

/-- **The layout follows the parts.** -/
theorem layout_map (f : α → β) (σ : Style) (casting : Bool) (sources : List Relation)
    (c : Clause α) : (c.map f).layout σ casting sources = (c.layout σ casting sources).map f := by
  cases c with
  | select s => exact (map_select f σ sources s).symm
  | list | function | distinctOn => simp [map, layout, Layout.map_append, map_separated]
  | _ => rfl

end Clause

/-! ## 6. What is in a layout -/

namespace Layout

variable {α β : Type} (own : Value → List β) (f : α → List β)

theorem gather_append (l m : Layout α) :
    gather own f (l ++ m) = gather own f l ++ gather own f m :=
  List.flatMap_append

@[simp] theorem gather_fixed (s : String) : gather own f (fixed s) = [] := rfl

@[simp] theorem gather_bound (v : Value) : gather own f (bound v) = own v :=
  List.append_nil _

@[simp] theorem gather_part (a : α) : gather own f (part a) = f a :=
  List.append_nil _

@[simp] theorem gather_separated (separator : String) :
    ∀ as : List α, gather own f (separated separator as) = as.flatMap f
  | [] => rfl
  | [a] => by rw [separated, gather_part, List.flatMap_singleton]
  | a :: b :: rest => by
      rw [separated, gather_append, gather_append, gather_separated separator (b :: rest),
        gather_part, gather_fixed, List.append_nil]
      rfl

theorem gather_flatMap (g : α → Layout α) (as : List α) :
    gather own f (as.flatMap g) = as.flatMap fun a => gather own f (g a) :=
  List.flatMap_assoc

@[simp] theorem gather_clausesBefore (as : List α) :
    gather own f (clausesBefore as) = as.flatMap f := by
  simp only [clausesBefore, gather_flatMap, gather_append, gather_part, gather_fixed,
    List.append_nil]

@[simp] theorem gather_clausesAfter (as : List α) :
    gather own f (clausesAfter as) = as.flatMap f := by
  simp only [clausesAfter, gather_flatMap, gather_append, gather_part, gather_fixed,
    List.nil_append]

@[simp] theorem gather_selectList (as : List α) :
    gather own f (selectList as) = as.flatMap f := by
  cases as with
  | nil => rfl
  | cons a as => exact gather_separated own f ", " (a :: as)

@[simp] theorem gather_termList (words : String) (as : List α) :
    gather own f (termList words as) = as.flatMap f := by
  cases as with
  | nil => rfl
  | cons a as => exact gather_separated own f ", " (a :: as)

@[simp] theorem gather_criterion (c : Option α) :
    gather own f (criterion c) = c.toList.flatMap f := by
  cases c <;> simp [criterion, gather_append]

/-- The terms of `DISTINCT ON` are in the text where there is such a thing. -/
@[simp] theorem gather_distinctWord (σ : Style) (s : Select α) :
    gather own f (distinctWord σ s) =
      (if σ.supportsDistinctOn then s.distinctOn else []).flatMap f := by
  unfold distinctWord
  cases s.distinctOn with
  | nil => cases σ.supportsDistinctOn <;> rfl
  | cons a as => cases σ.supportsDistinctOn <;> simp [gather_append]

/-- The clauses of a statement come in the order of their texts. -/
theorem gather_select (σ : Style) (sources : List Relation) (s : Select α) :
    gather own f (select σ sources s) =
      ((if σ.supportsDistinctOn then s.distinctOn else []) ++ s.preColumns ++ s.columns
        ++ s.criterion.toList ++ s.postCriteria ++ s.groupBy ++ s.orderBy
        ++ s.postBody).flatMap f := by
  simp only [select, gather_append, gather_fixed, gather_distinctWord, gather_clausesBefore,
    gather_selectList, gather_criterion, gather_clausesAfter, gather_termList, List.nil_append,
    List.append_nil, List.flatMap_append]

end Layout

namespace Clause

open Layout

variable {α β : Type}

/-- The clause without what is left out of the text: the terms of `DISTINCT ON` of a statement,
where there is no such thing. -/
def shown (supportsDistinctOn : Bool) : Clause α → Clause α
  | select s => select { s with distinctOn := if supportsDistinctOn then s.distinctOn else [] }
  | c => c

/-- The terms of a statement that are left out of its text. -/
def leftOut (supportsDistinctOn : Bool) : Clause α → List α
  | select s => if supportsDistinctOn then [] else s.distinctOn
  | _ => []

@[simp] theorem shown_true (c : Clause α) : c.shown true = c := by
  cases c <;> rfl

/-- A part is shown or left out. -/
theorem parts_perm (supportsDistinctOn : Bool) (c : Clause α) :
    c.parts.Perm ((c.shown supportsDistinctOn).parts ++ c.leftOut supportsDistinctOn) := by
  cases c with
  | select s =>
      cases supportsDistinctOn with
      | true => exact .of_eq (List.append_nil _).symm
      | false =>
          have := Classical.typeDecidableEq α
          rw [List.perm_iff_count]
          intro a
          simp only [shown, leftOut, parts, attributes, Attribute.parts, List.flatMap_cons,
            List.flatMap_nil, List.count_append, List.append_nil, List.nil_append,
            Bool.false_eq_true, if_false]
          omega
  | _ => exact .of_eq (List.append_nil _).symm

theorem mem_parts_of_shown {supportsDistinctOn : Bool} {c : Clause α} {a : α}
    (h : a ∈ (c.shown supportsDistinctOn).parts) : a ∈ c.parts :=
  (parts_perm supportsDistinctOn c).mem_iff.mpr (List.mem_append_left _ h)

section

variable (own : Value → List β) (f : α → List β) (σ : Style) (casting : Bool)
  (sources : List Relation) {c : Clause α}

/-- Apart from statements, what comes from the parts comes in their order. -/
theorem gather_layout (hcustom : c.isCustom = false) (hselect : ∀ s, c ≠ .select s) :
    (c.layout σ casting sources).gather own f =
      c.boundValue?.toList.flatMap own ++ c.parts.flatMap f := by
  cases c with
  | select s => exact absurd rfl (hselect s)
  | custom => cases hcustom
  | _ =>
      simp [layout, gather_append, boundValue?, parts, attributes, Attribute.parts]

/-- **What is gathered from a layout comes from the value of the clause and from the parts that are
shown, from each of them once.** -/
theorem gather_layout_perm (hcustom : c.isCustom = false) :
    ((c.layout σ casting sources).gather own f).Perm
      (c.boundValue?.toList.flatMap own ++ (c.shown σ.supportsDistinctOn).parts.flatMap f) := by
  cases c with
  | select s =>
      -- the two orders differ only in where the lists stand, so it is enough to count
      have hparts : ((if σ.supportsDistinctOn then s.distinctOn else []) ++ s.preColumns
          ++ s.columns ++ s.criterion.toList ++ s.postCriteria ++ s.groupBy ++ s.orderBy
          ++ s.postBody).Perm ((Clause.select s).shown σ.supportsDistinctOn).parts := by
        have := Classical.typeDecidableEq α
        rw [List.perm_iff_count]
        intro a
        simp only [shown, parts, attributes, Attribute.parts, List.flatMap_cons,
          List.flatMap_nil, List.count_append, List.append_nil, List.nil_append]
        omega
      rw [layout, gather_select]
      exact hparts.flatMap_right f
  | custom => cases hcustom
  | _ =>
      refine .of_eq (gather_layout own f σ casting sources hcustom fun s hs => ?_)
      cases hs

end

/-- What a layout names is a part of the clause. -/
theorem mem_parts_of_layout {σ : Style} {casting : Bool} {sources : List Relation} {c : Clause α}
    {a : α} (h : a ∈ (c.layout σ casting sources).parts) : a ∈ c.parts := by
  cases hcustom : c.isCustom with
  | true =>
      cases c with
      | custom => cases h
      | _ => cases hcustom
  | false =>
      have hperm := gather_layout_perm (fun _ => []) ([·]) σ casting sources hcustom
      have hshown : a ∈ (c.shown σ.supportsDistinctOn).parts := by
        simpa using hperm.mem_iff.mp h
      exact mem_parts_of_shown hshown

/-- A layout has the value of its clause and no other. -/
theorem values_layout (σ : Style) (casting : Bool) (sources : List Relation) (c : Clause α) :
    (c.layout σ casting sources).values = c.boundValue?.toList := by
  cases c with
  | select s =>
      rw [layout, Layout.values, gather_select]
      exact List.flatMap_eq_nil_iff.mpr fun _ _ => rfl
  | custom => rfl
  | _ => simp [layout, Layout.values, gather_append, boundValue?]

end Clause

end SqlClause
