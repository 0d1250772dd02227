import SqlClause.Coercion

/-!
# Function calls

Calls whose arguments are read under the expression role.

A call of `array_agg` yields an array: the type of its first argument if that is an array, and
otherwise an array of it. An aggregate may be fed in a given order: its argument is then the
aggregated expression followed by `ORDER BY` and one term or more. One term stands as it is, several
stand as a list; both are written alike.

A call of text search may begin with the name of a configuration, which a caller gives as a plain
string; in a call that has a configuration the first argument is therefore bound as one
(`DataType.regconfig`) and not as text. Every value bound by such a call carries the name of the
function. Whether there is a configuration is seen from the number of arguments. Only for
`ts_headline` does that not suffice: there is none if the second argument is a query already.
-/

namespace SqlClause

/-! ## 1. Calls and aggregates -/

/-- A call of the function, which yields `type`. -/
def call (name : String) (args : List Argument) (type : DataType) : Except Error Node := do
  let arguments ← args.mapM (coerce .expression)
  return .function name arguments type

/-- A call of `count`. -/
def count (arg : Argument) : Except Error Node := call "count" [arg] .bigint

/-- The array that collects values of a type. An array is collected into one of its own type. -/
def collectedType (arrayOf : DataType → DataType) (item : DataType) : DataType :=
  if item.isArray then item else arrayOf item

/-- A call of `array_agg`, of the given type or of the array that collects its first argument. -/
def arrayAggregate (args : List Argument) (type : Option DataType) (arrayOf : DataType → DataType) :
    Except Error Node := do
  let arguments ← args.mapM (coerce .expression)
  let item := (arguments.head?.map Node.dataType).getD .null
  return .function "array_agg" arguments (type.getD (collectedType arrayOf item))

/-- The terms of an ordering as one node, if there is any. -/
def orderingOf : List Node → Option Node
  | [] => none
  | [term] => some term
  | terms => some (.commaList terms)

/-- The argument of an aggregate that is fed in the order of the terms. -/
def orderedAggregate (target : Argument) (terms : List Argument) : Except Error Node := do
  let target ← coerce .expression target
  let terms ← terms.mapM (coerce .expression)
  match orderingOf terms with
  | none => throw (.empty .orderByTerms)
  | some orderBy => return ⟨.orderedAggregate target target.dataType orderBy⟩

/-! ## 2. Text search -/

/-- The functions of text search. -/
inductive SearchFunction where
  | toTsvector
  | toTsquery
  | plaintoTsquery
  | phrasetoTsquery
  | websearchToTsquery
  | tsHeadline
deriving DecidableEq, Repr

namespace SearchFunction

def name : SearchFunction → String
  | toTsvector => "to_tsvector"
  | toTsquery => "to_tsquery"
  | plaintoTsquery => "plainto_tsquery"
  | phrasetoTsquery => "phraseto_tsquery"
  | websearchToTsquery => "websearch_to_tsquery"
  | tsHeadline => "ts_headline"

/-- The type that a call yields. -/
def resultType : SearchFunction → DataType
  | toTsvector => .tsvector
  | toTsquery | plaintoTsquery | phrasetoTsquery | websearchToTsquery => .tsquery
  | tsHeadline => .text

/-- The argument is an expression that is known to be a query. -/
def isQuery : Argument → Bool
  | .element n => n.isColumnElement && n.dataType.isTsquery
  | .value _ => false

/-- The arguments begin with a configuration. -/
def isConfigured : SearchFunction → List Argument → Bool
  | tsHeadline, _ :: second :: _ => !isQuery second
  | _, _ :: _ :: _ => true
  | _, _ => false

/-- The options under which the first argument is read. -/
def firstOptions (f : SearchFunction) (args : List Argument) : BindOptions :=
  if f.isConfigured args then .typed .regconfig f.name else .named f.name

/-- The arguments of a call, read in order. -/
def arguments (f : SearchFunction) (args : List Argument) : Except Error (List Node) :=
  match args with
  | [] => return []
  | first :: rest => do
      let a ← coerceWith .expression first (f.firstOptions args)
      let as ← rest.mapM fun b => coerceWith .expression b (.named f.name)
      return a :: as

/-- A call of the function. -/
def call (f : SearchFunction) (args : List Argument) : Except Error Node := do
  return .function f.name (← f.arguments args) f.resultType

end SearchFunction

end SqlClause
