import SqlClause.Render.Session
import SqlClause.Select.Basic

/-!
# Rendering clauses

A node is rendered by the rule that the registry has for its tag. A rule sees the clause with the
renderings of its parts in the place of the parts, and does them in the order in which their texts
stand, so that placeholders are numbered from left to right. A rule refuses clauses of any other
kind than its own.

* `Node.render_mk`: the rendering of a node, from the renderings of its parts.
-/

namespace SqlClause

namespace RenderM

/-! ## 1. Leaves -/

/-- A column: its name, in statements with the table in front. -/
def column (c : ColumnRef) : RenderM String := do
  if c.literal then return c.name
  let name ← quote c.name
  match c.table with
  | none => return name
  | some table =>
      if (← get).inDdl then return name
      return (← relation table) ++ "." ++ name

/-- A bound value, with a cast if it is a text search configuration. -/
def castingBind (p : BindParam) : RenderM String := do
  let text ← bindValue p.value
  if p.type.isRegconfig then return text ++ "::" ++ p.type.toSql
  return text

/-! ## 2. Statements -/

/-- `DISTINCT` or `DISTINCT ON` with its terms, where the dialect has it. -/
def distinctWord (s : Select (RenderM String)) : RenderM String := do
  if !s.distinctOn.isEmpty && (← read).dialect.supportsDistinctOn then
    return "DISTINCT ON (" ++ (← joined ", " s.distinctOn) ++ ") "
  return if s.distinct then "DISTINCT " else ""

/-- The clauses of an extension before the columns, each with a blank after it. -/
def clausesBefore (parts : List (RenderM String)) : RenderM String :=
  return String.join ((← parts.mapM id).map (· ++ " "))

/-- The clauses of an extension elsewhere, each with a blank before it. -/
def clausesAfter (parts : List (RenderM String)) : RenderM String :=
  return String.join ((← parts.mapM id).map (" " ++ ·))

/-- The columns of a statement, of which a star stands for none. -/
def selectList (columns : List (RenderM String)) : RenderM String :=
  if columns.isEmpty then return "*" else joined ", " columns

/-- A list of terms behind its words, if there are terms. -/
def termList (words : String) (terms : List (RenderM String)) : RenderM String := do
  if terms.isEmpty then return ""
  return words ++ (← joined ", " terms)

def criterionText (criterion : Option (RenderM String)) : RenderM String :=
  match criterion with
  | none => return ""
  | some c => return " WHERE " ++ (← c)

/-- A number behind its word, if there is one. -/
def numberText (word : String) (n : Option UInt64) : String :=
  match n with
  | none => ""
  | some n => word ++ n.toNat.repr

/-- A statement, in the order of its text. -/
def select (sources : List Relation) (s : Select (RenderM String)) : RenderM String := do
  let distinct ← distinctWord s
  let pre ← clausesBefore s.preColumns
  let columns ← selectList s.columns
  let froms ← termList " FROM " (sources.map relation)
  let criterion ← criterionText s.criterion
  let afterCriterion ← clausesAfter s.postCriteria
  let groupBy ← termList " GROUP BY " s.groupBy
  let orderBy ← termList " ORDER BY " s.orderBy
  let bounds := numberText " LIMIT " s.limit ++ numberText " OFFSET " s.offset
  let afterBody ← clausesAfter s.postBody
  return "SELECT " ++ distinct ++ pre ++ columns ++ froms ++ criterion ++ afterCriterion
    ++ groupBy ++ orderBy ++ bounds ++ afterBody

end RenderM

/-! ## 3. Rules -/

/-- What a rule makes of a clause. `sources` are the relations that a statement selects from. -/
def ElementRule.apply (sources : List Relation) (rule : ElementRule) (c : Clause (RenderM String)) :
    RenderM String :=
  match rule, c with
  | .column, .column c => RenderM.column c
  | .bind, .bind p => RenderM.bindValue p.value
  | .castingBind, .bind p => RenderM.castingBind p
  | .text, .text sql => return sql
  | .keyword, .keyword k => return k.sql
  | .binary, .binary left op right _ => return (← left) ++ op.separator ++ (← right)
  | .unary, .unary element op modifier => do
      let text ← element
      return (op.map (·.sql ++ " ")).getD "" ++ text ++ (modifier.map (" " ++ ·.sql)).getD ""
  | .list, .list clauses op => RenderM.joined op.separator clauses
  | .grouping, .grouping element => return "(" ++ (← element) ++ ")"
  | .function, .function name arguments _ =>
      return name ++ "(" ++ (← RenderM.joined ", " arguments) ++ ")"
  | .cast, .cast element type => return "CAST(" ++ (← element) ++ " AS " ++ type.toSql ++ ")"
  | .typeCoerce, .typeCoerce element _ => element
  | .label, .label name element => return (← element) ++ " AS " ++ (← RenderM.quote name)
  | .select, .select s => RenderM.select sources s
  | .hint, .hint element => element
  | .orderedAggregate, .orderedAggregate target _ orderBy =>
      return (← target) ++ " ORDER BY " ++ (← orderBy)
  | .distinctOn, .distinctOn terms => return "ON (" ++ (← RenderM.joined ", " terms) ++ ")"
  | _, c => throw (.wrongClause c.tag)

/-- The rule that the registry has for clauses with the tag. -/
def RenderM.elementRule (tag : String) : RenderM ElementRule := do
  match (← read).registry.element? tag with
  | some rule => return rule
  | none => throw (.noRule tag)

namespace Node

/-- The text of a node. -/
def render : Node → RenderM String :=
  fold fun n c => do
    let rule ← RenderM.elementRule c.tag
    rule.apply n.sources c

/-- The texts of nodes, with a separator between them. -/
def renderAll (separator : String) (ns : List Node) : RenderM String :=
  RenderM.joined separator (ns.map render)

theorem render_mk (c : Clause Node) :
    (mk c).render = (do
      let rule ← RenderM.elementRule c.tag
      rule.apply (mk c).sources (c.map render)) := by
  rw [render, fold_mk, Clause.tag_map]

end Node

end SqlClause
