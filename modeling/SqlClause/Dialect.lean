import SqlClause.Text.Quoted

/-!
# Identifiers and dialects

A name can stand in SQL as it is if it is a word of small ASCII letters, digits, underscores and
dollar signs that begins with a letter or an underscore, and no reserved word. Any other name
stands between quote marks, which are doubled inside it.

A dialect says what varies from database to database: the quote mark around identifiers, the
placeholder of a bound value, which may depend on the position of the value, and whether `DISTINCT
ON` exists. It may also have a way of its own to tell which names are to be quoted, or to quote
them; what is said here of identifiers holds of the dialects that keep the common one.

* `reservedWords_sorted`: the order of the reserved words, by which they can be searched;
* `requiresQuotes_eq_false_iff`: the names that stand as they are;
* `Dialect.KeepsQuoting.quote_eq`: the identifier for a name, in the common way.
-/

namespace SqlClause

/-! ## 1. Names -/

/-- The words that SQL keeps for itself, in alphabetical order. -/
def reservedWords : List String :=
  ["all", "and", "any", "array", "as", "asc", "between", "by", "case", "cast", "check", "column",
   "constraint", "create", "default", "desc", "distinct", "else", "end", "exclude", "false",
   "for", "from", "group", "having", "in", "is", "join", "like", "limit", "not", "null",
   "offset", "on", "or", "order", "select", "table", "then", "to", "true", "union", "unique",
   "user", "using", "when", "where", "with"]

/-- The words ascend, none of them twice, so that a search by halves finds each of them and no
other. -/
theorem reservedWords_sorted : reservedWords.Pairwise (· < ·) := by
  decide

/-- The character can begin a plain name. -/
def startsName (c : Char) : Bool := c.isLower || c == '_'

/-- The character can stand in a plain name. -/
def continuesName (c : Char) : Bool := c.isLower || c.isDigit || c == '_' || c == '$'

/-- The characters are those of a plain name, reserved or not. -/
def isPlainName : List Char → Bool
  | [] => false
  | c :: cs => startsName c && (c :: cs).all continuesName

/-- The name must be quoted to stand as an identifier. -/
def requiresQuotes (name : String) : Bool := !isPlainName name.toList || reservedWords.contains name

theorem requiresQuotes_eq_false_iff {name : String} :
    requiresQuotes name = false ↔ isPlainName name.toList = true ∧ name ∉ reservedWords := by
  simp [requiresQuotes]

/-- The identifier for a name, between quote marks if the name is one to be quoted. -/
def quoteIdentifier (quoted : String → Bool) (mark : Char) (name : String) : String :=
  if quoted name then Text.delimited mark name else name

/-! ## 2. Dialects -/

/-- The spelling of what databases spell differently. What a dialect says nothing about is as in
standard SQL, with a question mark for every bound value. -/
structure Dialect where
  name : String
  /-- The mark around a quoted identifier. -/
  quoteMark : Char := '"'
  /-- The placeholder of the value at a position; the first position is 1. -/
  placeholder : Nat → String := fun _ => "?"
  supportsDistinctOn : Bool := false
  /-- The name must be quoted to stand as an identifier. -/
  requiresQuotes : String → Bool := SqlClause.requiresQuotes
  /-- The identifier for a name. -/
  quote : String → String := quoteIdentifier requiresQuotes quoteMark

namespace Dialect

/-- Standard SQL. -/
def generic : Dialect := { name := "generic" }

/-- PostgreSQL, with numbered placeholders. -/
def postgresql : Dialect where
  name := "postgresql"
  placeholder := fun position => "$" ++ position.repr
  supportsDistinctOn := true

/-- The dialect quotes in the common way, by whatever mark. -/
structure KeepsQuoting (d : Dialect) : Prop where
  requiresQuotes : d.requiresQuotes = SqlClause.requiresQuotes
  quote : d.quote = quoteIdentifier d.requiresQuotes d.quoteMark

theorem keepsQuoting_generic : generic.KeepsQuoting := ⟨rfl, rfl⟩

theorem keepsQuoting_postgresql : postgresql.KeepsQuoting := ⟨rfl, rfl⟩

/-- The identifier for a name, in the common way. -/
theorem KeepsQuoting.quote_eq {d : Dialect} (h : d.KeepsQuoting) (name : String) :
    d.quote name =
      if SqlClause.requiresQuotes name then Text.delimited d.quoteMark name else name := by
  rw [h.quote, h.requiresQuotes, quoteIdentifier]

end Dialect

end SqlClause
