import SqlClause.Schema.Constraint

/-!
# Tables

A table has columns, in the order of their definition, and constraints, in the order in which they
were attached. The definition of a column says its name and type, what is demanded of its values,
and the table that it belongs to once it has been added to one: it belongs to that table under the
table's present name and schema. `Column.expr` is the expression that refers to it.

* `Table.require_eq_ok_iff`: what `require` gives is the expression of the first column of the
  name.
-/

namespace SqlClause

/-! ## 1. Columns -/

/-- The definition of a column. -/
structure Column where
  name : String
  type : DataType
  nullable : Bool
  isPrimaryKey : Bool
  isUnique : Bool
  table : Option Relation
deriving DecidableEq, Inhabited

namespace Column

/-- A column of no table that takes every value of its type. -/
def ofType (name : String) (type : DataType) : Column := ⟨name, type, true, false, false, none⟩

def notNull (c : Column) : Column := { c with nullable := false }

/-- A primary key is not null, whatever was said of the column before. -/
def primaryKey (c : Column) : Column := { c with isPrimaryKey := true, nullable := false }

def unique (c : Column) : Column := { c with isUnique := true }

/-- The column as one of the table. -/
def ofTable (c : Column) (table : Relation) : Column := { c with table := some table }

/-- The reference to the column. -/
def ref (c : Column) : ColumnRef := ⟨c.name, c.table, c.type, false⟩

/-- The expression that refers to the column. -/
def expr (c : Column) : Node := ⟨.column c.ref⟩

end Column

/-! ## 2. Tables -/

/-- A table: its columns and its constraints. -/
structure Table where
  name : String
  schema : Option String
  columns : List Column
  constraints : List Constraint

namespace Table

/-- A table without columns and constraints. -/
def ofName (name : String) : Table := ⟨name, none, [], []⟩

/-- The table as a relation. -/
def relation (t : Table) : Relation := ⟨t.schema, t.name⟩

/-- The table in a schema. Its columns go with it. -/
def withSchema (t : Table) (schema : String) : Table :=
  let t := { t with schema := some schema }
  { t with columns := t.columns.map (·.ofTable t.relation) }

/-- The table with one more column. -/
def addColumn (t : Table) (c : Column) : Table :=
  { t with columns := t.columns ++ [c.ofTable t.relation] }

/-- The table with one more constraint. -/
def push (t : Table) (c : Constraint) : Table := { t with constraints := t.constraints ++ [c] }

/-! ## 3. Look-ups -/

/-- The first column of the name. -/
def column? (t : Table) (name : String) : Option Column := t.columns.find? fun c => c.name == name

/-- The expression for the column of the name. -/
def expr? (t : Table) (name : String) : Option Node := (t.column? name).map Column.expr

/-- The expression for the column of the name, which the table must have. -/
def require (t : Table) (name : String) : Except Error Node :=
  match t.expr? name with
  | some n => .ok n
  | none => .error (.columnNotFound t.name name)

/-- The expression of an entry; a pending name is looked up in the table. -/
def resolve (t : Table) : Entry → Except Error Node
  | .pending name => t.require name
  | .resolved n => .ok n

theorem require_eq_ok_iff {t : Table} {name : String} {n : Node} :
    t.require name = .ok n ↔ t.expr? name = some n := by
  unfold require
  split <;> simp [*]

theorem require_eq_error_iff {t : Table} {name : String} {e : Error} :
    t.require name = .error e ↔ t.expr? name = none ∧ e = .columnNotFound t.name name := by
  unfold require
  split <;> simp [*, eq_comm]

end Table

end SqlClause
