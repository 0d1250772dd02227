import SqlClause.Operator
import SqlClause.Clause.Attribute
import SqlClause.Select.Parts

/-!
# Clauses

`Clause α` is one clause of a statement, of whatever kind, over the type `α` of its parts. A tree
of clauses is a `Node` (`SqlClause.Node.Basic`), a clause whose parts are nodes again; a clause
over another type holds what was computed for the parts.

Each kind has a `tag`, the name by which renderers are found, and declares its `attributes`. A kind
that this library does not define is a `custom` clause: it brings its tag and its attributes along.
Whatever else a kind may say of itself (its type, whether it yields a value of a column, where it
needs parentheses, which relations it mentions) a `custom` clause leaves at what is the default. A
kind that says something else there is not covered.

* `Clause.attributes_map`, `Clause.parts_map`: attributes and parts follow `map`;
* `Clause.traverse_map`: visiting the images of the parts is visiting the parts.
-/

namespace SqlClause

/-- A reference to a column, or a piece of SQL that stands for one. -/
structure ColumnRef where
  name : String
  table : Option Relation
  type : DataType
  /-- The name is SQL text, written as it is. -/
  literal : Bool
deriving DecidableEq, Inhabited

/-- A value that the statement binds. -/
structure BindParam where
  key : Option String
  value : Value
  type : DataType
deriving DecidableEq, Inhabited

/-- The words that stand for values. -/
inductive Keyword where
  | null | true | false
deriving DecidableEq, Repr

/-- One clause, over the type of its parts. -/
inductive Clause (α : Type) where
  | column (c : ColumnRef)
  | bind (p : BindParam)
  /-- SQL text, written as it is. -/
  | text (sql : String)
  | keyword (k : Keyword)
  | binary (left : α) (op : Operator) (right : α) (type : DataType)
  /-- An operator before an element, a modifier after it, either or both. -/
  | unary (element : α) (op : Option Operator) (modifier : Option Modifier)
  | list (clauses : List α) (op : Operator)
  /-- An element in parentheses. -/
  | grouping (element : α)
  | function (name : String) (arguments : List α) (type : DataType)
  | cast (element : α) (type : DataType)
  /-- An element that counts as one of another type and is written as it is. -/
  | typeCoerce (element : α) (type : DataType)
  | label (name : String) (element : α)
  | select (s : Select α)
  /-- What an extension puts at the end of a statement. -/
  | hint (element : α)
  /-- An argument of an aggregate, with the order in which it is fed. -/
  | orderedAggregate (target : α) (type : DataType) (orderBy : α)
  /-- The terms of `DISTINCT ON` as an extension brings them. -/
  | distinctOn (terms : List α)
  /-- A kind of clause defined elsewhere, with all defaults: its type is not known, it yields no
  value of a column, needs no parentheses, and mentions the relations of its parts. -/
  | custom (tag : String) (attributes : List (String × Attribute α))

namespace Keyword

def tag : Keyword → String
  | null => "null"
  | true => "true"
  | false => "false"

def sql : Keyword → String
  | null => "NULL"
  | true => "TRUE"
  | false => "FALSE"

def dataType : Keyword → DataType
  | null => .null
  | true | false => .boolean

end Keyword

namespace Clause

variable {α β γ : Type}

/-! ## 1. Kinds -/

/-- The name of the clause's kind. -/
def tag : Clause α → String
  | column _ => "column"
  | bind _ => "bindparam"
  | text _ => "textclause"
  | keyword k => k.tag
  | binary .. => "binary"
  | unary .. => "unary"
  | list .. => "clauselist"
  | grouping _ => "grouping"
  | function .. => "function"
  | cast .. => "cast"
  | typeCoerce .. => "type_coerce"
  | label .. => "label"
  | select _ => "select"
  | hint _ => "statement_hint"
  | orderedAggregate .. => "aggregate_order_by"
  | distinctOn _ => "postgresql_distinct_on"
  | custom tag _ => tag

/-- The clause is of a kind defined elsewhere. Its tag may be that of a kind defined here. -/
def isCustom : Clause α → Bool
  | custom .. => true
  | _ => false

/-- The two clauses are of one kind. -/
def sameKind (a : Clause α) (b : Clause β) : Bool := a.isCustom == b.isCustom && a.tag == b.tag

/-! ## 2. Attributes and parts -/

/-- What the clause is made of. Everything by which two clauses of one kind can differ is here,
once. -/
def attributes : Clause α → List (String × Attribute α)
  | column c =>
      [("name", .string (some c.name)),
       ("table", .string (c.table.map (·.name))),
       ("schema", .string (c.table.bind (·.schema))),
       ("type", .type c.type),
       ("is_literal", .boolean c.literal)]
  | bind p => [("key", .string p.key), ("type", .type p.type), ("value", .value p.value)]
  | text sql => [("text", .string (some sql))]
  | keyword _ => []
  | binary left op right type =>
      [("left", .element left), ("operator", .string (some op.sql)), ("right", .element right),
       ("type", .type type)]
  | unary element op modifier =>
      [("element", .element element), ("operator", .string (op.map Operator.sql)),
       ("modifier", .string (modifier.map Modifier.sql))]
  | list clauses op => [("clauses", .elementList clauses), ("operator", .string (some op.sql))]
  | grouping element => [("element", .element element)]
  | function name arguments type =>
      [("name", .string (some name)), ("arguments", .elementList arguments), ("type", .type type)]
  | cast element type => [("element", .element element), ("type", .type type)]
  | typeCoerce element type => [("element", .element element), ("type", .type type)]
  | label name element => [("name", .string (some name)), ("element", .element element)]
  | select s =>
      [("columns", .elementList s.columns),
       ("where", .optionalElement s.criterion),
       ("group_by", .elementList s.groupBy),
       ("order_by", .elementList s.orderBy),
       ("limit", .integer s.limit),
       ("offset", .integer s.offset),
       ("distinct", .boolean s.distinct),
       ("distinct_on", .elementList s.distinctOn),
       ("distinct_on_claimed", .boolean s.distinctOnClaimed),
       ("pre_columns", .elementList s.preColumns),
       ("post_criteria", .elementList s.postCriteria),
       ("post_body", .elementList s.postBody)]
  | hint element => [("hint", .element element)]
  | orderedAggregate target type orderBy =>
      [("target", .element target), ("type", .type type), ("order_by", .element orderBy)]
  | distinctOn terms => [("distinct_on", .elementList terms)]
  | custom _ attributes => attributes

/-- The parts of the clause, in the order of its attributes. -/
def parts (c : Clause α) : List α := c.attributes.flatMap fun a => a.2.parts

/-! ## 3. Clauses over another type of parts -/

/-- The clause with `f` done to its parts. -/
def map (f : α → β) : Clause α → Clause β
  | column c => column c
  | bind p => bind p
  | text sql => text sql
  | keyword k => keyword k
  | binary left op right type => binary (f left) op (f right) type
  | unary element op modifier => unary (f element) op modifier
  | list clauses op => list (clauses.map f) op
  | grouping element => grouping (f element)
  | function name arguments type => function name (arguments.map f) type
  | cast element type => cast (f element) type
  | typeCoerce element type => typeCoerce (f element) type
  | label name element => label name (f element)
  | select s => select (s.map f)
  | hint element => hint (f element)
  | orderedAggregate target type orderBy => orderedAggregate (f target) type (f orderBy)
  | distinctOn terms => distinctOn (terms.map f)
  | custom tag attributes => custom tag (attributes.map fun a => (a.1, a.2.map f))

/-- The clause with what `f` answers for its parts. Parts are visited in order, except that the
criterion of a statement comes after its other parts. -/
def traverse {m : Type → Type} [Monad m] (f : α → m β) : Clause α → m (Clause β)
  | column c => return column c
  | bind p => return bind p
  | text sql => return text sql
  | keyword k => return keyword k
  | binary left op right type => return binary (← f left) op (← f right) type
  | unary element op modifier => return unary (← f element) op modifier
  | list clauses op => return list (← clauses.mapM f) op
  | grouping element => return grouping (← f element)
  | function name arguments type => return function name (← arguments.mapM f) type
  | cast element type => return cast (← f element) type
  | typeCoerce element type => return typeCoerce (← f element) type
  | label name element => return label name (← f element)
  | select s => return select (← s.traverse f)
  | hint element => return hint (← f element)
  | orderedAggregate target type orderBy =>
      return orderedAggregate (← f target) type (← f orderBy)
  | distinctOn terms => return distinctOn (← terms.mapM f)
  | custom tag attributes =>
      return custom tag (← attributes.mapM fun a => do return (a.1, ← a.2.traverse f))

/-! ## 4. Attributes, parts and visits after `map` -/

@[simp] theorem tag_map (f : α → β) (c : Clause α) : (c.map f).tag = c.tag := by
  cases c <;> rfl

@[simp] theorem isCustom_map (f : α → β) (c : Clause α) : (c.map f).isCustom = c.isCustom := by
  cases c <;> rfl

theorem attributes_map (f : α → β) (c : Clause α) :
    (c.map f).attributes = c.attributes.map fun a => (a.1, a.2.map f) := by
  cases c <;> rfl

@[simp] theorem parts_map (f : α → β) (c : Clause α) : (c.map f).parts = c.parts.map f := by
  simp [parts, attributes_map, List.flatMap_map, List.map_flatMap]

theorem map_map (f : α → β) (g : β → γ) (c : Clause α) : (c.map f).map g = c.map (g ∘ f) := by
  cases c <;> simp [map, Select.map_map, Attribute.map_map]

theorem traverse_map {m : Type → Type} [Monad m] [LawfulMonad m] (f : α → β) (g : β → m γ)
    (c : Clause α) : (c.map f).traverse g = c.traverse fun x => g (f x) := by
  cases c with
  | select s => simp [map, traverse, Select.traverse_map]
  | list | function | distinctOn => simp [map, traverse, List.mapM_map, Function.comp_def]
  | custom => simp [map, traverse, List.mapM_map, Function.comp_def, Attribute.traverse_map]
  | _ => rfl

end Clause

end SqlClause
