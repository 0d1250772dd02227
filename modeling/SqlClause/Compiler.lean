import SqlClause.Render.Ddl

/-!
# Compilers

A compiler renders one thing after the other and keeps its progress between them: values bound by
`process` and `bind` add up. Only `compile` starts afresh, and hands out the values that it has
bound together with the text.

* `Compiler.compile_forgets`: what was bound before does not matter to `compile`.
-/

namespace SqlClause

/-- A text and the values that it binds, in the order of their placeholders. -/
structure Compiled where
  sql : String
  params : List Value
deriving DecidableEq

/-- A compiler: what it renders with, and how far it has come. -/
structure Compiler where
  settings : Settings
  progress : Progress

namespace Compiler

/-- A compiler that has rendered nothing yet. -/
def new (settings : Settings) : Compiler := ⟨settings, .start⟩

/-- The compiler of PostgreSQL. -/
def postgresql (literalBinds : Bool) : Compiler := new ⟨.postgresql, .postgresql, literalBinds⟩

/-- The compiler of standard SQL. -/
def generic (literalBinds : Bool) : Compiler := new ⟨.generic, .core, literalBinds⟩

/-- Does a rendering: its outcome, and the compiler afterwards. -/
def run {α : Type} (c : Compiler) (act : RenderM α) : Except Error α × Compiler :=
  let (outcome, progress) := act c.settings c.progress
  (outcome, { c with progress })

/-- A statement with the values that it binds. The values bound before are forgotten first; those
of a statement that fails stay with the compiler. -/
def compile (c : Compiler) (n : Node) : Except Error Compiled × Compiler :=
  match n.render c.settings { c.progress with params := [] } with
  | (.error e, progress) => (.error e, { c with progress })
  | (.ok sql, progress) =>
      (.ok ⟨sql, progress.params⟩, { c with progress := { progress with params := [] } })

/-- The text of a node, with the values that it binds added to those bound before. -/
def process (c : Compiler) (n : Node) : Except Error String × Compiler := c.run n.render

/-- The texts of nodes with a separator between them. -/
def processAll (c : Compiler) (separator : String) (ns : List Node) :
    Except Error String × Compiler :=
  c.run (Node.renderAll separator ns)

/-- The text of a value. -/
def bind (c : Compiler) (v : Value) : Except Error String × Compiler := c.run (RenderM.bindValue v)

/-- The text of a constraint. -/
def constraint (c : Compiler) (k : Constraint) : Except Error String × Compiler := c.run k.render

/-- The definition of a table. -/
def createTable (c : Compiler) (t : Table) : Except Error String × Compiler := c.run t.render

/-- What was bound before does not matter to `compile`. -/
theorem compile_forgets (c : Compiler) (params : List Value) (n : Node) :
    ({ c with progress := { c.progress with params } }).compile n = c.compile n := rfl

/-! ## Outline -/

/-- The compiler by its settings and the values bound so far. -/
def outline (c : Compiler) : String :=
  Text.outlinePartial "SqlCompiler"
    [("dialect", Text.quoted c.settings.dialect.name),
     ("renderers", c.settings.registry.outline),
     ("options", Text.outlineRecord "CompileOptions"
       [("literal_binds", Text.outlineBool c.settings.literalBinds)]),
     ("params", Text.outlineList (c.progress.params.map Value.outline))]

end Compiler

end SqlClause
