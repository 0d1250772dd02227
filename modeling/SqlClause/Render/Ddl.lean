import SqlClause.Render.Element
import SqlClause.Schema.Table

/-!
# Rendering definitions

The text of a table's definition: its columns and its constraints, line by line. Constraints are
rendered as parts of a definition, by the rules that the registry has for their kinds.
-/

namespace SqlClause

/-- The string with its ASCII letters in lower case. -/
def lowerCase (s : String) : String := s.map Char.toLower

namespace RenderM

/-! ## 1. Columns -/

/-- The definition of a column. A primary key need not be said to be not null. -/
def columnDefinition (c : Column) : RenderM String := do
  let name ← quote c.name
  let key := if c.isPrimaryKey then " PRIMARY KEY" else if c.nullable then "" else " NOT NULL"
  let unique := if c.isUnique then " UNIQUE" else ""
  return name ++ " " ++ c.type.toSql ++ key ++ unique

/-! ## 2. Constraints -/

/-- The name of a constraint, where it has one. -/
def constraintName (name : Option String) : RenderM String := do
  match name with
  | none => return ""
  | some name => return "CONSTRAINT " ++ (← quote name) ++ " "

/-- A condition on every row. -/
def check (c : CheckConstraint) : RenderM String := do
  let name ← constraintName c.name
  return name ++ "CHECK (" ++ (← c.condition.render) ++ ")"

/-- The expression of an exclusion, in parentheses if an operator stands outermost. -/
def enclosed (n : Node) (text : String) : String :=
  match n.clause with
  | .binary .. | .unary .. | .list .. => "(" ++ text ++ ")"
  | _ => text

/-- The operator class of a column, if the expression is one by name. -/
def operatorClass? (classes : NameMap String) (n : Node) : Option String :=
  n.namedColumn?.bind fun c => classes.get? c.name

/-- The expression of one element of an exclusion. A pending name stands as an identifier. -/
def excludeExpression (classes : NameMap String) (e : Entry) : RenderM String := do
  match e with
  | .pending name => quote name
  | .resolved n =>
      let text := enclosed n (← n.render)
      return text ++ ((operatorClass? classes n).map (" " ++ ·)).getD ""

def excludeElement (classes : NameMap String) (e : ExcludeElement) : RenderM String := do
  return (← excludeExpression classes e.expression) ++ " WITH " ++ e.operator

/-- The criterion of an exclusion. -/
def excludeCriterion (criterion : Option Node) : RenderM String := do
  match criterion with
  | none => return ""
  | some n => return " WHERE (" ++ (← n.render) ++ ")"

def deferrableText : Option Bool → String
  | none => ""
  | some true => " DEFERRABLE"
  | some false => " NOT DEFERRABLE"

/-- An exclusion of rows. -/
def exclude (c : ExcludeConstraint) : RenderM String := do
  let elements ← joined ", " (c.elements.map (excludeElement c.classes))
  let name ← constraintName c.name
  let criterion ← excludeCriterion c.criterion
  return name ++ "EXCLUDE USING " ++ lowerCase c.method ++ " (" ++ elements ++ ")" ++ criterion
    ++ deferrableText c.deferrable ++ (c.initially.map (" INITIALLY " ++ ·)).getD ""

/-- The rule that the registry has for constraints with the tag. -/
def constraintRule (tag : String) : RenderM ConstraintRule := do
  match (← read).registry.constraint? tag with
  | some rule => return rule
  | none => throw (.noRule tag)

end RenderM

/-- What a rule makes of a constraint. -/
def ConstraintRule.apply (rule : ConstraintRule) (c : Constraint) : RenderM String :=
  match rule, c with
  | .check, .check c => RenderM.check c
  | .exclude, .exclude c => RenderM.exclude c
  | _, c => throw (.wrongConstraint c.tag)

/-- The text of a constraint, as a part of a definition. -/
def Constraint.render (c : Constraint) : RenderM String := do
  let rule ← RenderM.constraintRule c.tag
  RenderM.asDefinition (rule.apply c)

/-! ## 3. Tables -/

/-- The definition of a table. -/
def Table.render (t : Table) : RenderM String := do
  let name ← RenderM.relation t.relation
  let columns ← t.columns.mapM RenderM.columnDefinition
  let constraints ← t.constraints.mapM Constraint.render
  let lines := (columns ++ constraints).map ("    " ++ ·)
  return "CREATE TABLE " ++ name ++ " (\n" ++ ",\n".intercalate lines ++ "\n)"

end SqlClause
