import SqlClause.Schema.Constraint

/-!
# Building exclusions

An exclusion is built from pairs of an argument and an operator, and from options. It needs one
pair at least and an index method whose name is a plain word; then the arguments are read, in
order, and then the criterion. The first of these that fails is the failure of the whole.
-/

namespace SqlClause

/-- The options of an exclusion. -/
structure ExcludeOptions where
  name : Option String
  deferrable : Option Bool
  initially : Option String
  /-- The index method; `gist` unless it is given. -/
  method : Option String
  criterion : Option Argument
  classes : NameMap String

namespace ExcludeOptions

def default : ExcludeOptions := ⟨none, none, none, none, none, .empty⟩

end ExcludeOptions

/-- The name is a word of ASCII letters, digits and underscores. -/
def isIndexMethod (name : String) : Bool :=
  !name.toList.isEmpty && name.toList.all fun c => c.isAlphanum || c == '_'

namespace ExcludeElement

/-- The element of a member of the list with its operator. -/
def ofMember (m : Member) (operator : String) : ExcludeElement :=
  ⟨m.expression, m.columnName?, operator⟩

/-- The column and the operator of an element that is about a column. -/
def operatorEntry? (e : ExcludeElement) : Option (String × String) :=
  e.name.map fun name => (name, e.operator)

end ExcludeElement

namespace ExcludeConstraint

/-- An exclusion that is attached to no table. -/
def build (pairs : List (Argument × String)) (options : ExcludeOptions) :
    Except Error ExcludeConstraint := do
  if pairs.isEmpty then throw (.empty .excludeElements)
  let method := options.method.getD "gist"
  if !isIndexMethod method then throw (.invalidIndexMethod method)
  let members ← readMembers .ddl (pairs.map (·.1))
  let elements := List.zipWith ExcludeElement.ofMember members (pairs.map (·.2))
  let criterion ← options.criterion.mapM (coerce .option)
  return { elements
           columns := members.filterMap Member.columnEntry?
           operators := .ofList (elements.filterMap ExcludeElement.operatorEntry?)
           name := options.name
           deferrable := options.deferrable
           initially := options.initially
           method
           criterion
           classes := options.classes
           parent := none
           listeners := .none }

/-- The options from which the constraint was built, but for its criterion. -/
def options (c : ExcludeConstraint) : ExcludeOptions :=
  ⟨c.name, c.deferrable, c.initially, some c.method, none, c.classes⟩

end ExcludeConstraint

end SqlClause
