import SqlClause.NameMap
import SqlClause.Text.Outline

/-!
# Registries of rules

A registry says by which rule the clauses and the constraints of a tag are rendered. Rules are
named here and defined in `SqlClause.Render.Element` and `SqlClause.Render.Ddl`. `Registry.core`
covers what every database knows; `Registry.postgresql` adds the kinds that only PostgreSQL has,
and casts values that are bound as text search configurations.
-/

namespace SqlClause

/-- A rule for clauses of one kind. -/
inductive ElementRule where
  | column
  | bind
  /-- A bound value, with a cast if it is a text search configuration. -/
  | castingBind
  | text
  | keyword
  | binary
  | unary
  | list
  | grouping
  | function
  | cast
  | typeCoerce
  | label
  | select
  | hint
  | orderedAggregate
  | distinctOn
deriving DecidableEq, Repr

/-- A rule for constraints of one kind. -/
inductive ConstraintRule where
  | check
  | exclude
deriving DecidableEq, Repr

/-- The rules by the tags of what they render. -/
structure Registry where
  elements : NameMap ElementRule
  constraints : NameMap ConstraintRule
deriving DecidableEq

namespace Registry

def empty : Registry := ⟨.empty, .empty⟩

/-- The registry with a rule for a tag, in place of an earlier one. -/
def register (r : Registry) (tag : String) (rule : ElementRule) : Registry :=
  { r with elements := r.elements.insert tag rule }

def registerConstraint (r : Registry) (tag : String) (rule : ConstraintRule) : Registry :=
  { r with constraints := r.constraints.insert tag rule }

/-- The rule for clauses with the tag. -/
def element? (r : Registry) (tag : String) : Option ElementRule := r.elements.get? tag

/-- The rule for constraints with the tag. -/
def constraint? (r : Registry) (tag : String) : Option ConstraintRule := r.constraints.get? tag

/-- The kinds of clauses that every database knows, with their rules. -/
def coreRules : List (String × ElementRule) :=
  [("column", .column), ("bindparam", .bind), ("textclause", .text), ("null", .keyword),
   ("true", .keyword), ("false", .keyword), ("binary", .binary), ("unary", .unary),
   ("clauselist", .list), ("grouping", .grouping), ("function", .function), ("cast", .cast),
   ("type_coerce", .typeCoerce), ("label", .label), ("select", .select), ("statement_hint", .hint)]

def core : Registry := ⟨.ofList coreRules, .ofList [("check_constraint", .check)]⟩

def postgresql : Registry :=
  (((core.register "aggregate_order_by" .orderedAggregate).register
    "postgresql_distinct_on" .distinctOn).register
    "bindparam" .castingBind).registerConstraint
    "exclude_constraint" .exclude

/-- The tags that the registry has rules for. -/
def outline (r : Registry) : String :=
  Text.outlineRecord "Renderers"
    [("elements", Text.outlineList (r.elements.names.map Text.quoted)),
     ("constraints", Text.outlineList (r.constraints.names.map Text.quoted))]

end Registry

end SqlClause
