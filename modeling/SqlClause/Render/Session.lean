import SqlClause.Dialect
import SqlClause.Error
import SqlClause.Relation
import SqlClause.Value
import SqlClause.Render.Registry

/-!
# Rendering sessions

Rendering depends on settings that do not change (dialect, rules, whether values are written into
the text) and on what has happened so far: the values bound up to now, in the order of their
placeholders, and whether a definition is being rendered, where values are written into the text in
any case and columns stand without their table. What was bound before a failure stays bound, so the
state is not lost with the result.

* `RenderM.bind_apply`: a rendering goes on with what has come so far, up to the first failure;
* `RenderM.bindValue_apply`: what becomes of a value;
* `RenderM.inDdl_asDefinition`: rendering a definition leaves no trace in the mode.
-/

namespace SqlClause

/-- What a rendering is done with. -/
structure Settings where
  dialect : Dialect
  registry : Registry
  /-- Values are written into the text instead of being bound. -/
  literalBinds : Bool

/-- How far a rendering has come. -/
structure Progress where
  /-- The values bound so far. -/
  params : List Value
  /-- A definition is being rendered. -/
  inDdl : Bool
deriving DecidableEq

namespace Progress

/-- Nothing is bound, and no definition is being rendered. -/
def start : Progress := ⟨[], false⟩

end Progress

/-- A rendering: what it yields or why it fails, and how far it has come. -/
abbrev RenderM := ReaderT Settings (ExceptT Error (StateM Progress))

namespace RenderM

/-- A value in the text: a placeholder, for which the value is recorded, or the value itself. -/
def bindValue (v : Value) : RenderM String := do
  let settings ← read
  let progress ← get
  if settings.literalBinds || progress.inDdl then return v.inline
  set { progress with params := progress.params ++ [v] }
  return settings.dialect.placeholder (progress.params.length + 1)

/-- The identifier for a name. -/
def quote (name : String) : RenderM String := return (← read).dialect.quote name

/-- A relation with its schema in front. -/
def relation (r : Relation) : RenderM String := do
  let dialect := (← read).dialect
  match r.schema with
  | some schema => return dialect.quote schema ++ "." ++ dialect.quote r.name
  | none => return dialect.quote r.name

/-- Does the rendering as a part of a definition. Afterwards, whether it failed or not, definitions
are being rendered or not as before. -/
def asDefinition {α : Type} (act : RenderM α) : RenderM α := fun settings progress =>
  let (outcome, later) := act settings { progress with inDdl := true }
  (outcome, { later with inDdl := progress.inDdl })

/-- The results of the renderings in order, with a separator between them. -/
def joined (separator : String) (parts : List (RenderM String)) : RenderM String :=
  return separator.intercalate (← parts.mapM id)

/-! ## What a rendering does -/

section Steps

variable {α β : Type} (s : Settings) (p : Progress)

theorem pure_apply (a : α) : (pure a : RenderM α) s p = (.ok a, p) := rfl

theorem throw_apply (e : Error) : (throw e : RenderM α) s p = (.error e, p) := rfl

theorem read_apply : (read : RenderM Settings) s p = (.ok s, p) := rfl

theorem get_apply : (get : RenderM Progress) s p = (.ok p, p) := rfl

theorem set_apply (q : Progress) : (set q : RenderM Unit) s p = (.ok (), q) := rfl

/-- A rendering goes on with what has come so far, and stops at the first failure. -/
theorem bind_apply (x : RenderM α) (f : α → RenderM β) :
    (x >>= f) s p = match x s p with
      | (.ok a, q) => f a s q
      | (.error e, q) => (.error e, q) := by
  change StateT.bind (x s) (fun r => ExceptT.bindCont (fun a => f a s) r) p = _
  unfold StateT.bind
  rcases x s p with ⟨_ | _, _⟩ <;> rfl

/-- **A value is written into the text, or recorded behind the values before it.** -/
theorem bindValue_apply (v : Value) :
    bindValue v s p =
      if s.literalBinds || p.inDdl then (.ok v.inline, p)
      else (.ok (s.dialect.placeholder (p.params.length + 1)),
        { p with params := p.params ++ [v] }) := by
  unfold bindValue
  simp only [bind_apply, read_apply, get_apply]
  split <;> simp only [bind_apply, pure_apply, set_apply]

/-- **After a definition, definitions are being rendered or not as before.** -/
theorem inDdl_asDefinition (act : RenderM α) : (asDefinition act s p).2.inDdl = p.inDdl := rfl

end Steps

end RenderM

end SqlClause
