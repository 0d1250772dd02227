import SqlClause.Proofs.Reading
import SqlClause.DataType

/-!
# Outlines of types can be read back

The outline of a type begins with the name of its constructor, which ends where no letter follows,
and goes on with what the constructor holds, up to a bracket or a brace of its own. So a type and
what follows its outline can be told from the characters of both, as long as no letter follows.

* `DataType.outline_eq`: constructor name first, then what it holds;
* **`DataType.readable_outline`**: the type and the rest are known from the text.
-/

namespace SqlClause.DataType

open Text

/-- The name of the constructor. -/
def constructorName : DataType → String
  | null => "Null"
  | smallint => "Smallint"
  | integer => "Integer"
  | bigint => "Bigint"
  | real => "Real"
  | double => "Double"
  | numeric _ _ => "Numeric"
  | char _ => "Char"
  | varchar _ => "Varchar"
  | text => "Text"
  | blob => "Blob"
  | date => "Date"
  | time => "Time"
  | timestamp => "Timestamp"
  | boolean => "Boolean"
  | array _ _ => "Array"
  | custom _ => "Custom"

/-- What stands behind the name of the constructor. -/
def contents : DataType → String
  | numeric precision scale =>
      " \x7b " ++ outlineField "precision" (outlineOption (precision.map (·.toNat.repr)))
        ++ ", " ++ outlineField "scale" (outlineOption (scale.map (·.toNat.repr))) ++ " \x7d"
  | char length | varchar length => "(" ++ outlineOption (length.map (·.toNat.repr)) ++ ")"
  | array item dialect =>
      " \x7b " ++ outlineField "item" item.outline ++ ", "
        ++ outlineField "dialect" (outlineOption (dialect.map quoted)) ++ " \x7d"
  | custom name => "(" ++ quoted name ++ ")"
  | _ => ""

theorem outline_eq (t : DataType) : t.outline = t.constructorName ++ t.contents := by
  cases t <;>
    simp only [outline, constructorName, contents, outlineRecord, outlineApply, outlineField,
      List.map_cons, List.map_nil, String.intercalate_cons_cons, String.intercalate_singleton,
      String.append_assoc, String.append_empty]

/-! ## 1. The name of the constructor -/

theorem isAlpha_of_mem_constructorName (t : DataType) :
    ∀ c ∈ t.constructorName.toList, c.isAlpha = true := by
  have hall : t.constructorName.toList.all Char.isAlpha = true := by
    cases t <;> simp only [constructorName] <;> decide
  exact List.all_eq_true.mp hall

/-- What a constructor holds begins with a bracket or a blank. -/
theorem noneAhead_contents (t : DataType) {r : List Char} (hr : NoneAhead Char.isAlpha r) :
    NoneAhead Char.isAlpha (t.contents.toList ++ r) := by
  cases t <;> simp only [contents, String.toList_append, List.append_assoc] <;>
    first
      | exact hr
      | exact noneAhead_cons.mpr (by decide)

theorem constructorName_append_inj {t u : DataType} {r s : List Char}
    (hr : NoneAhead Char.isAlpha r) (hs : NoneAhead Char.isAlpha s)
    (h : t.outline.toList ++ r = u.outline.toList ++ s) :
    t.constructorName = u.constructorName ∧ t.contents.toList ++ r = u.contents.toList ++ s := by
  rw [outline_eq, outline_eq, String.toList_append, String.toList_append, List.append_assoc,
    List.append_assoc] at h
  obtain ⟨hname, hrest⟩ :=
    append_inj_of_all (isAlpha_of_mem_constructorName t) (isAlpha_of_mem_constructorName u)
      (noneAhead_contents t hr) (noneAhead_contents u hs) h
  exact ⟨String.toList_inj.mp hname, hrest⟩

/-! ## 2. What it holds -/

/-- A number that may be absent ends by itself. -/
theorem readable_optionalSize {α : Type} {toNat : α → Nat}
    (hinj : ∀ ⦃a b⦄, toNat a = toNat b → a = b) :
    Readable AnyAhead fun n : Option α => (outlineOption (n.map fun n => (toNat n).repr)).toList :=
  readable_option (fun _ => noneAhead_cons.mpr (by decide)) (readable_repr.comp hinj)

/-- A string that may be absent ends by itself. -/
theorem readable_optionalString :
    Readable AnyAhead fun s : Option String => (outlineOption (s.map quoted)).toList :=
  readable_option (fun _ => trivial) readable_quoted

/-- The length of a character type ends with its bracket. -/
theorem length_append_inj {length length' : Option UInt32} {r s : List Char}
    (h : (char length).contents.toList ++ r = (char length').contents.toList ++ s) :
    length = length' ∧ r = s := by
  simp only [contents, String.toList_append, List.append_assoc] at h
  obtain ⟨hlength, hrest⟩ := readable_optionalSize (fun _ _ => UInt32.toNat_inj.mp) trivial trivial
    (List.append_cancel_left h)
  exact ⟨hlength, List.append_cancel_left hrest⟩

/-- **A type and what follows its outline are known from the text**, if no letter follows. -/
theorem readable_outline :
    Readable (NoneAhead Char.isAlpha) fun t : DataType => t.outline.toList := by
  intro t
  induction t with
  | numeric precision scale =>
      intro u r s hr hs h
      obtain ⟨hname, h⟩ := constructorName_append_inj hr hs h
      cases u with
      | numeric precision' scale' =>
          simp only [contents, outlineField, String.toList_append, List.append_assoc] at h
          have h₁ := List.append_cancel_left (List.append_cancel_left (List.append_cancel_left h))
          obtain ⟨rfl, h₂⟩ :=
            readable_optionalSize (fun _ _ => UInt16.toNat_inj.mp) trivial trivial h₁
          have h₃ := List.append_cancel_left (List.append_cancel_left (List.append_cancel_left h₂))
          obtain ⟨rfl, h₄⟩ :=
            readable_optionalSize (fun _ _ => UInt16.toNat_inj.mp) trivial trivial h₃
          exact ⟨rfl, List.append_cancel_left h₄⟩
      | _ => simp [constructorName] at hname
  | char length =>
      intro u r s hr hs h
      obtain ⟨hname, h⟩ := constructorName_append_inj hr hs h
      cases u with
      | char length' =>
          obtain ⟨rfl, hrest⟩ := length_append_inj h
          exact ⟨rfl, hrest⟩
      | _ => simp [constructorName] at hname
  | varchar length =>
      intro u r s hr hs h
      obtain ⟨hname, h⟩ := constructorName_append_inj hr hs h
      cases u with
      | varchar length' =>
          obtain ⟨rfl, hrest⟩ := length_append_inj h
          exact ⟨rfl, hrest⟩
      | _ => simp [constructorName] at hname
  | array item dialect ih =>
      intro u r s hr hs h
      obtain ⟨hname, h⟩ := constructorName_append_inj hr hs h
      cases u with
      | array item' dialect' =>
          simp only [contents, outlineField, String.toList_append, List.append_assoc] at h
          have h₁ := List.append_cancel_left (List.append_cancel_left (List.append_cancel_left h))
          have hcomma : ∀ r, NoneAhead Char.isAlpha (", ".toList ++ r) :=
            fun _ => noneAhead_cons.mpr (by decide)
          obtain ⟨rfl, h₂⟩ := ih (hcomma _) (hcomma _) h₁
          have h₃ := List.append_cancel_left (List.append_cancel_left (List.append_cancel_left h₂))
          obtain ⟨rfl, h₄⟩ := readable_optionalString trivial trivial h₃
          exact ⟨rfl, List.append_cancel_left h₄⟩
      | _ => simp [constructorName] at hname
  | custom name =>
      intro u r s hr hs h
      obtain ⟨hname, h⟩ := constructorName_append_inj hr hs h
      cases u with
      | custom name' =>
          simp only [contents, String.toList_append, List.append_assoc] at h
          obtain ⟨rfl, h₁⟩ := readable_quoted trivial trivial (List.append_cancel_left h)
          exact ⟨rfl, List.append_cancel_left h₁⟩
      | _ => simp [constructorName] at hname
  | _ =>
      intro u r s hr hs h
      obtain ⟨hname, h⟩ := constructorName_append_inj hr hs h
      -- the other constructors hold nothing, so the name is all there is to know
      cases u <;> simp [constructorName] at hname
      all_goals
        simp only [contents, String.toList_empty, List.nil_append] at h
        exact ⟨rfl, h⟩

end SqlClause.DataType
