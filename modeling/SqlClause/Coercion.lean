import SqlClause.Error
import SqlClause.Node.Build
import SqlClause.Node.Walk

/-!
# Coercion of arguments

A caller may give a clause or a plain value. `coerce` makes of it a clause that can play the role
asked for, or fails. A clause is taken as it is if the role accepts it. A value is bound under the
expression role; the other roles read a string as text in their own way and take few other values
or none.

A constraint may be written down before its table is known. A member of it that is given by the name
of a column stays pending until the constraint is attached; one that is given as an expression is
resolved from the start. The step from pending to resolved is made once (`SqlClause.Schema.Table`).

* `coerce_element_eq_ok_iff`: a clause is never changed, only accepted or refused.
-/

namespace SqlClause

/-- What a caller gives: a clause, or a value whose reading depends on the role. -/
inductive Argument where
  | element (n : Node)
  | value (v : Value)

/-- What is asked of a bound value beyond the value: its type and its name. -/
structure BindOptions where
  type : Option DataType
  name : Option String

namespace BindOptions

/-- The value's own type and no name. -/
def default : BindOptions := ⟨none, none⟩

def named (name : String) : BindOptions := ⟨none, some name⟩

def typed (type : DataType) (name : String) : BindOptions := ⟨some type, some name⟩

end BindOptions

namespace Argument

/-- The words for the argument in an error message. -/
def description : Argument → String
  | element n => "'" ++ n.tag ++ "' element"
  | value v => v.kind

def isElement : Argument → Bool
  | element _ => true
  | value _ => false

end Argument

/-! ## 1. One argument -/

/-- The node is SQL text. -/
def Node.isText (n : Node) : Bool :=
  match n.clause with
  | .text _ => true
  | _ => false

/-- The clauses that can play the role. -/
def Role.accepts : Role → Node → Bool
  | expression, n | byOf, n => n.isColumnElement
  | option, n | ddl, n => n.isColumnElement || n.isText

/-- The clause that a value stands for under a role, where it stands for one. -/
def Role.read? (role : Role) (v : Value) (options : BindOptions) : Option Node :=
  match role, v with
  | expression, v => some (.bind options.name v options.type)
  | byOf, .text s => some (.literalColumn s)
  | byOf, .null => some (.keyword .null)
  | byOf, .bool b => some (.truth b)
  | option, .text s => some (.text s)
  | ddl, .text s => some (.column s)
  | _, _ => none

/-- The clause that plays the role, with the type and name asked for if it is a bound value. -/
def coerceWith (role : Role) (a : Argument) (options : BindOptions) : Except Error Node :=
  match a with
  | .element n =>
      if role.accepts n then .ok n else .error (.coercion role a.description .notColumn)
  | .value v =>
      match role.read? v options with
      | some n => .ok n
      | none => .error (.coercion role a.description .notAcceptedLiteral)

/-- The clause that plays the role. -/
def coerce (role : Role) (a : Argument) : Except Error Node := coerceWith role a .default

/-- **A clause is never changed, only accepted or refused.** -/
theorem coerce_element_eq_ok_iff {role : Role} {n m : Node} {options : BindOptions} :
    coerceWith role (.element n) options = .ok m ↔ role.accepts n = true ∧ m = n := by
  by_cases h : role.accepts n = true
  · simp only [coerceWith, h, if_true, Except.ok.injEq, true_and]
    exact eq_comm
  · simp [coerceWith, h]

/-! ## 2. The columns of a constraint -/

/-- The node is a reference to a column, by name. -/
def Node.namedColumn? (n : Node) : Option ColumnRef :=
  match n.clause with
  | .column c => if c.literal then none else some c
  | _ => none

/-- The first reference to a column by name, at the node or below it. -/
def Node.firstColumn? (n : Node) : Option ColumnRef := n.preorder.findSome? Node.namedColumn?

/-- A column name that waits for its table, or an expression. -/
inductive Entry where
  | pending (name : String)
  | resolved (n : Node)

namespace Entry

def node? : Entry → Option Node
  | pending _ => none
  | resolved n => some n

def pendingName? : Entry → Option String
  | pending name => some name
  | resolved _ => none

def isPending : Entry → Bool
  | pending _ => true
  | resolved _ => false

end Entry

/-- One member of a constraint's list of columns and expressions. -/
structure Member where
  expression : Entry
  /-- The first column that the expression refers to. -/
  column : Option ColumnRef
  /-- The name, where the member was given by name. -/
  name : Option String

namespace Member

/-- What the member adds to the columns of the constraint. -/
def columnEntry? (m : Member) : Option Entry :=
  match m.expression with
  | .pending name => some (.pending name)
  | .resolved _ => m.column.map fun c => .resolved ⟨.column c⟩

/-- The name of the column that the member is about. -/
def columnName? (m : Member) : Option String := (m.column.map (·.name)).or m.name

/-- A member given by the name of a column. -/
def ofName (name : String) : Member := ⟨.pending name, none, some name⟩

/-- A member given by an expression. -/
def ofNode (n : Node) : Member := ⟨.resolved n, n.firstColumn?, none⟩

end Member

/-- Reads one member: under the constraint role a string is a name that waits for its table. -/
def readMember (role : Role) (a : Argument) : Except Error Member :=
  match role, a with
  | .ddl, .value (.text name) => .ok (.ofName name)
  | _, _ => .ofNode <$> coerce role a

/-- Reads the members in order, up to the first that cannot play the role. -/
def readMembers (role : Role) (as : List Argument) : Except Error (List Member) :=
  as.mapM (readMember role)

end SqlClause
