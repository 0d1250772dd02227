import SqlClause.NameMap
import SqlClause.Value

/-!
# Attributes

A clause declares what it is made of as a list of named attributes. An attribute holds the clause's
parts (one, at most one, or a list of them) or a scalar: a type, a string, a truth value, an
integer, a map of strings, a bound value. Walks, comparison and cache keys see a clause through its
attributes alone, so a kind of clause that declares them needs nothing else.

An attribute is written over the type `α` of the parts, so that the parts can be replaced by what
was computed for them: `map` does this, and `Attribute.parts_map` says that it keeps their order.
-/

namespace SqlClause

/-- One attribute of a clause whose parts are of type `α`. -/
inductive Attribute (α : Type) where
  | element (part : α)
  | optionalElement (part : Option α)
  | elementList (parts : List α)
  | type (t : DataType)
  | string (s : Option String)
  | boolean (b : Bool)
  | integer (n : Option UInt64)
  | stringMap (m : NameMap String)
  /-- A bound value: it counts in comparison and is left out of cache keys. -/
  | value (v : Value)

namespace Attribute

variable {α β γ : Type}

/-- The attribute with `f` done to its parts. -/
def map (f : α → β) : Attribute α → Attribute β
  | element part => element (f part)
  | optionalElement part => optionalElement (part.map f)
  | elementList parts => elementList (parts.map f)
  | type t => type t
  | string s => string s
  | boolean b => boolean b
  | integer n => integer n
  | stringMap m => stringMap m
  | value v => value v

/-- The parts that the attribute holds, in order. -/
def parts : Attribute α → List α
  | element part => [part]
  | optionalElement part => part.toList
  | elementList parts => parts
  | _ => []

/-- The attribute with what `f` answers for its parts, which are visited in order. -/
def traverse {m : Type → Type} [Monad m] (f : α → m β) : Attribute α → m (Attribute β)
  | element part => return element (← f part)
  | optionalElement none => return optionalElement none
  | optionalElement (some part) => return optionalElement (some (← f part))
  | elementList parts => return elementList (← parts.mapM f)
  | type t => return type t
  | string s => return string s
  | boolean b => return boolean b
  | integer n => return integer n
  | stringMap m => return stringMap m
  | value v => return value v

@[simp] theorem parts_map (f : α → β) (a : Attribute α) : (a.map f).parts = a.parts.map f := by
  cases a with
  | optionalElement part => cases part <;> rfl
  | _ => rfl

theorem map_map (f : α → β) (g : β → γ) (a : Attribute α) : (a.map f).map g = a.map (g ∘ f) := by
  cases a <;> simp [map]

theorem map_id (a : Attribute α) : a.map id = a := by
  cases a <;> simp [map]

theorem traverse_map {m : Type → Type} [Monad m] [LawfulMonad m] (f : α → β) (g : β → m γ)
    (a : Attribute α) : (a.map f).traverse g = a.traverse fun x => g (f x) := by
  cases a with
  | optionalElement part => cases part <;> rfl
  | elementList parts => simp [map, traverse, List.mapM_map, Function.comp_def]
  | _ => rfl

end Attribute

end SqlClause
