import SqlClause.Node.Build
import SqlClause.Node.Key
import SqlClause.Proofs.Shape
import SqlClause.Proofs.TypeReading

/-!
# Cache keys can be read back

In the key of a built-in tree every part ends where the next one begins: a string after as many
bytes as the number in front of it says, a type where no letter follows, a tree at its bracket. So
the key determines the shape of the tree, and as no value leaves a trace in it, the shape
determines the key.

* `readable_keyString`: a string with its length in front ends by itself;
* `Attribute.key_append_inj`, `Node.cacheKey_append_inj`: so do attributes and trees;
* **`Node.cacheKey_eq_iff`**: built-in trees have one key if and only if they have one shape;
* **`Node.agrees_iff_cacheKey_eq`**: they agree if they have one key and bind equal values.
-/

namespace SqlClause

open Text

/-! ## 1. Strings and maps -/

/-- A number begins with a digit. -/
theorem repr_eq_cons (n : Nat) : ∃ c cs, n.repr.toList = c :: cs ∧ c.isDigit = true := by
  rw [Nat.toList_repr]
  cases h : Nat.toDigits 10 n with
  | nil => exact absurd h Nat.toDigits_ne_nil
  | cons c cs =>
      have hmem : c ∈ Nat.toDigits 10 n := h ▸ List.mem_cons_self
      exact ⟨c, cs, rfl, Nat.isDigit_of_mem_toDigits (by decide) (by decide) hmem⟩

theorem toList_keyString (s : String) :
    (keyString s).toList = s.utf8ByteSize.repr.toList ++ '\x27' :: (s.toList ++ ['\x27']) := by
  simp [keyString]

theorem keyString_eq_cons (s : String) :
    ∃ c cs, (keyString s).toList = c :: cs ∧ c.isDigit = true := by
  obtain ⟨c, cs, h, hc⟩ := repr_eq_cons s.utf8ByteSize
  rw [toList_keyString, h]
  exact ⟨c, _, rfl, hc⟩

/-- Of two texts that begin the same and are equally long, neither goes on behind the other. -/
theorem eq_of_append_of_utf8ByteSize {s t : String} {u v : List Char}
    (hsize : s.utf8ByteSize = t.utf8ByteSize) (h : s.toList ++ u = t.toList ++ v) :
    s = t ∧ u = v := by
  have hnil : ∀ {s t : String} {w : List Char}, s.utf8ByteSize = t.utf8ByteSize →
      t.toList = s.toList ++ w → w = [] := by
    intro s t w hsize hw
    have ht : t = s ++ String.ofList w := by
      rw [← String.toList_inj, hw, String.toList_append, String.toList_ofList]
    rw [ht, String.utf8ByteSize_append] at hsize
    have hzero : (String.ofList w).utf8ByteSize = 0 := by omega
    have hempty := String.utf8ByteSize_eq_zero_iff.mp hzero
    rw [← String.toList_inj, String.toList_ofList] at hempty
    exact hempty
  rcases List.append_eq_append_iff.mp h with ⟨w, hw, hu⟩ | ⟨w, hw, hv⟩
  · obtain rfl := hnil hsize hw
    rw [List.append_nil] at hw
    exact ⟨(String.toList_inj.mp hw).symm, hu⟩
  · obtain rfl := hnil hsize.symm hw
    rw [List.append_nil] at hw
    exact ⟨String.toList_inj.mp hw, hv.symm⟩

/-- **A string with its length in front ends by itself**, whatever is in it. -/
theorem readable_keyString : Readable AnyAhead fun s : String => (keyString s).toList := by
  intro s t u v _ _ h
  simp only [toList_keyString, List.append_assoc, List.cons_append, List.nil_append] at h
  have hquote : ∀ r, NoneAhead Char.isDigit ('\x27' :: r) := fun _ => noneAhead_cons.mpr (by decide)
  obtain ⟨hsize, hrest⟩ := readable_repr (hquote _) (hquote _) h
  obtain ⟨rfl, hclose⟩ := eq_of_append_of_utf8ByteSize hsize (List.cons.inj hrest).2
  exact ⟨rfl, (List.cons.inj hclose).2⟩

/-- An entry of a map ends by itself. -/
theorem readable_keyEntry : Readable AnyAhead fun e : String × String => (keyEntry e).toList := by
  rintro ⟨k, v⟩ ⟨k', v'⟩ r s _ _ h
  simp only [keyEntry, String.toList_append, List.append_assoc] at h
  obtain ⟨rfl, h₁⟩ := readable_keyString trivial trivial h
  obtain ⟨rfl, h₂⟩ := readable_keyString trivial trivial (List.append_cancel_left h₁)
  exact ⟨rfl, h₂⟩

/-- What may be absent ends where it ends if it is there, unless it can be taken for the mark of
absence. -/
theorem readable_orAbsent {α : Type} {after : List Char → Prop} {write : α → String}
    (hwrite : ∀ a, ∃ c cs, (write a).toList = c :: cs ∧ c.isDigit = true)
    (h : Readable after fun a => (write a).toList) :
    Readable after fun a : Option α => ((a.map write).getD keyAbsent).toList := by
  have habsent : keyAbsent.toList = ['-'] := rfl
  intro a b r s hr hs e
  cases a with
  | none =>
      cases b with
      | none => exact ⟨rfl, List.append_cancel_left e⟩
      | some b =>
          obtain ⟨c, cs, hb, hc⟩ := hwrite b
          simp only [Option.map_none, Option.getD_none, Option.map_some, Option.getD_some, habsent,
            hb, List.cons_append, List.cons.injEq] at e
          rw [← e.1] at hc
          exact absurd hc (by decide)
  | some a =>
      cases b with
      | none =>
          obtain ⟨c, cs, ha, hc⟩ := hwrite a
          simp only [Option.map_none, Option.getD_none, Option.map_some, Option.getD_some, habsent,
            ha, List.cons_append, List.cons.injEq] at e
          rw [e.1] at hc
          exact absurd hc (by decide)
      | some b =>
          obtain ⟨rfl, hrs⟩ := h hr hs e
          exact ⟨rfl, hrs⟩

/-! ## 2. Attributes -/

/-- What follows an attribute in a key: the next attribute or the end of the clause. -/
def FieldAhead (r : List Char) : Prop := ∃ s, r = ' ' :: s ∨ r = ')' :: s

theorem FieldAhead.noneAhead {p : Char → Bool} (hblank : p ' ' = false) (hclose : p ')' = false)
    {r : List Char} (h : FieldAhead r) : NoneAhead p r := by
  obtain ⟨s, rfl | rfl⟩ := h
  · exact noneAhead_cons.mpr hblank
  · exact noneAhead_cons.mpr hclose

namespace Attribute

variable {α β : Type}

/-- The attributes are of one form, whatever they hold. -/
inductive SameForm : Attribute α → Attribute β → Prop where
  | element {x y} : SameForm (element x) (element y)
  | optionalElement {x y} : SameForm (optionalElement x) (optionalElement y)
  | elementList {xs ys} : SameForm (elementList xs) (elementList ys)
  | type {t u} : SameForm (type t) (type u)
  | string {s t} : SameForm (string s) (string t)
  | boolean {b c} : SameForm (boolean b) (boolean c)
  | integer {m n} : SameForm (integer m) (integer n)
  | stringMap {m n} : SameForm (stringMap m) (stringMap n)
  | value {v w} : SameForm (value v) (value w)

end Attribute

namespace Node

/-- A key begins with a bracket. -/
theorem cacheKey_eq_cons (n : Node) : ∃ cs, n.cacheKey.toList = '(' :: cs := by
  obtain ⟨c⟩ := n
  rw [cacheKey_mk, Clause.key]
  simp only [String.toList_append, List.append_assoc]
  exact ⟨_, rfl⟩

/-- The keys of two trees can be read: what the trees are, up to values, and what follows. -/
def KeysReadable (n m : Node) : Prop :=
  ∀ r s, n.cacheKey.toList ++ r = m.cacheKey.toList ++ s → n.shape = m.shape ∧ r = s

end Node

namespace Attribute

/-- **An attribute ends where the next one begins**, if its parts end by themselves. -/
theorem key_append_inj {a b : Attribute Node} (hform : SameForm a b)
    (ih : ∀ n ∈ a.parts, ∀ m ∈ b.parts, n.KeysReadable m) {r s : List Char} (hr : FieldAhead r)
    (hs : FieldAhead s)
    (h : (a.map Node.cacheKey).key.toList ++ r = (b.map Node.cacheKey).key.toList ++ s) :
    (a.map Node.shape).blank = (b.map Node.shape).blank ∧ r = s := by
  cases hform with
  | @element n m =>
      obtain ⟨hshape, hrs⟩ := ih n (List.mem_singleton_self n) m (List.mem_singleton_self m) r s h
      exact ⟨congrArg Attribute.element hshape, hrs⟩
  | @optionalElement x y =>
      have habsent : keyAbsent.toList = ['-'] := rfl
      cases x with
      | none =>
          cases y with
          | none => exact ⟨rfl, List.append_cancel_left h⟩
          | some m =>
              obtain ⟨cs, hm⟩ := m.cacheKey_eq_cons
              simp [key, map, habsent, hm] at h
      | some n =>
          cases y with
          | none =>
              obtain ⟨cs, hn⟩ := n.cacheKey_eq_cons
              simp [key, map, habsent, hn] at h
          | some m =>
              obtain ⟨hshape, hrs⟩ :=
                ih n (List.mem_singleton_self n) m (List.mem_singleton_self m) r s h
              exact ⟨congrArg (fun n => Attribute.optionalElement (some n)) hshape, hrs⟩
  | @elementList ns ms =>
      have hclose : ∀ (n : Node) r s, n.cacheKey.toList ++ r ≠ ']' :: s := by
        intro n r s e
        obtain ⟨cs, hn⟩ := n.cacheKey_eq_cons
        rw [hn, List.cons_append, List.cons.injEq] at e
        exact absurd e.1 (by decide)
      simp only [key, map, String.toList_append, String.toList_intercalate, List.append_assoc,
        List.map_map] at h
      have hmarks : ',' ≠ ']' := by decide
      obtain ⟨hshape, hrs⟩ :=
        separated_append_inj hmarks ih hclose (List.append_cancel_left h)
      exact ⟨congrArg Attribute.elementList hshape, hrs⟩
  | @type t u =>
      obtain ⟨rfl, hrs⟩ := DataType.readable_outline (hr.noneAhead (by decide) (by decide))
        (hs.noneAhead (by decide) (by decide)) h
      exact ⟨rfl, hrs⟩
  | @string x y =>
      obtain ⟨rfl, hrs⟩ := readable_orAbsent keyString_eq_cons readable_keyString trivial trivial h
      exact ⟨rfl, hrs⟩
  | @boolean x y =>
      cases x <;> cases y <;> simp [key, map] at h
      · exact ⟨rfl, h⟩
      · exact ⟨rfl, h⟩
  | @integer x y =>
      have hread : Readable (NoneAhead Char.isDigit) fun n : UInt64 => n.toNat.repr.toList :=
        readable_repr.comp fun _ _ => UInt64.toNat_inj.mp
      obtain ⟨rfl, hrs⟩ := readable_orAbsent (fun n : UInt64 => repr_eq_cons n.toNat) hread
        (hr.noneAhead (by decide) (by decide)) (hs.noneAhead (by decide) (by decide)) h
      exact ⟨rfl, hrs⟩
  | @stringMap x y =>
      have hclose : ∀ (e : String × String) r s, (keyEntry e).toList ++ r ≠ '}' :: s := by
        intro e r s he
        obtain ⟨c, cs, hc, hdigit⟩ := keyString_eq_cons e.1
        simp only [keyEntry, String.toList_append, hc, List.cons_append, List.cons.injEq] at he
        rw [he.1] at hdigit
        exact absurd hdigit (by decide)
      simp only [key, map, String.toList_append, String.toList_intercalate, List.append_assoc,
        List.map_map] at h
      have hmarks : ',' ≠ '}' := by decide
      have hitems : x.entries.map id = y.entries.map id ∧ r = s :=
        separated_append_inj hmarks (fun e _ f _ r s he => readable_keyEntry trivial trivial he)
          hclose (List.append_cancel_left h)
      obtain ⟨hentries, hrs⟩ := hitems
      rw [List.map_id, List.map_id] at hentries
      exact ⟨congrArg Attribute.stringMap (NameMap.ext_entries hentries), hrs⟩
  | value => exact ⟨rfl, List.append_cancel_left h⟩

end Attribute

/-! ## 3. Clauses and trees -/

namespace Clause

variable {α β : Type}

/-- Built-in clauses of one kind have the same attributes, in one order and each of one form. -/
theorem sameForm_attributes {c : Clause α} {d : Clause β} (hc : c.isCustom = false)
    (hkind : c.sameKind d = true) :
    List.Forall₂ (fun a b => a.1 = b.1 ∧ a.2.SameForm b.2) c.attributes d.attributes := by
  cases sameConstructor_of_sameKind hkind with
  | custom => cases hc
  | _ => simp only [attributes]; repeat constructor

/-- The characters of which the tags of built-in clauses are made. -/
def isTagChar (x : Char) : Bool := x.isAlpha || x == '_'

theorem isTagChar_of_mem_tag {c : Clause α} (hc : c.isCustom = false) :
    ∀ x ∈ c.tag.toList, isTagChar x = true := by
  have hall : c.tag.toList.all isTagChar = true := by
    cases c with
    | custom => cases hc
    | keyword k => cases k <;> simp only [tag, Keyword.tag] <;> decide
    | _ => simp only [tag]; decide
  exact List.all_eq_true.mp hall

end Clause

/-- A named attribute in a key. -/
def fieldText (a : String × Attribute Node) : List Char :=
  ' ' :: (a.1.toList ++ '=' :: (a.2.map Node.cacheKey).key.toList)

theorem fieldAhead_fields (as : List (String × Attribute Node)) (r : List Char) :
    FieldAhead (as.flatMap fieldText ++ ')' :: r) := by
  cases as with
  | nil => exact ⟨r, .inr rfl⟩
  | cons a as => exact ⟨_, .inl rfl⟩

/-- Attributes are read one by one, up to the bracket behind the last. -/
theorem fields_append_inj : ∀ {as bs : List (String × Attribute Node)} {r s : List Char},
    List.Forall₂ (fun a b => a.1 = b.1 ∧ a.2.SameForm b.2) as bs →
    (∀ a ∈ as, ∀ b ∈ bs, ∀ n ∈ a.2.parts, ∀ m ∈ b.2.parts, n.KeysReadable m) →
    as.flatMap fieldText ++ ')' :: r = bs.flatMap fieldText ++ ')' :: s →
    as.map (fun a => (a.1, (a.2.map Node.shape).blank)) =
      bs.map (fun a => (a.1, (a.2.map Node.shape).blank)) ∧ r = s
  | _, _, _, _, .nil, _, h => ⟨rfl, (List.cons.inj h).2⟩
  | a :: as, b :: bs, r, s, .cons ⟨hname, hform⟩ hrest, ih, h => by
      simp only [List.flatMap_cons, fieldText, List.cons_append, List.append_assoc, hname] at h
      have hkey := (List.cons.inj (List.append_cancel_left (List.cons.inj h).2)).2
      obtain ⟨hshape, htail⟩ := Attribute.key_append_inj hform
        (ih a List.mem_cons_self b List.mem_cons_self) (fieldAhead_fields as r)
        (fieldAhead_fields bs s) hkey
      obtain ⟨hshapes, hrs⟩ := fields_append_inj hrest
        (fun a ha b hb => ih a (List.mem_cons_of_mem _ ha) b (List.mem_cons_of_mem _ hb)) htail
      exact ⟨by rw [List.map_cons, List.map_cons, hname, hshape, hshapes], hrs⟩

namespace Node

theorem toList_cacheKey_mk (c : Clause Node) :
    (mk c).cacheKey.toList =
      '(' :: (c.tag.toList ++ (c.attributes.flatMap fieldText ++ [')'])) := by
  rw [cacheKey_mk, Clause.key, Clause.tag_map, Clause.attributes_map]
  simp only [String.toList_append, String.toList_join, List.map_map, List.flatMap_map,
    Function.comp_def, List.append_assoc]
  rfl

/-- **A built-in tree ends by itself in a key**, and all of it but its values can be read. -/
theorem cacheKey_append_inj : ∀ n : Node, n.BuiltIn → ∀ m : Node, m.BuiltIn → n.KeysReadable m := by
  apply induction
  rintro c ih hn ⟨d⟩ hm r s h
  obtain ⟨hc, hcparts⟩ := builtIn_mk.mp hn
  obtain ⟨hd, hdparts⟩ := builtIn_mk.mp hm
  rw [toList_cacheKey_mk, toList_cacheKey_mk] at h
  simp only [List.cons_append, List.append_assoc, List.cons.injEq, true_and,
    List.nil_append] at h
  have hahead : ∀ (e : Clause Node) t,
      NoneAhead Clause.isTagChar (e.attributes.flatMap fieldText ++ ')' :: t) :=
    fun e t => (fieldAhead_fields e.attributes t).noneAhead (by decide) (by decide)
  obtain ⟨htag, hfields⟩ := append_inj_of_all (Clause.isTagChar_of_mem_tag hc)
    (Clause.isTagChar_of_mem_tag hd) (hahead c r) (hahead d s) h
  have hkind : c.sameKind d = true :=
    Clause.sameKind_iff.mpr ⟨hc.trans hd.symm, String.toList_inj.mp htag⟩
  have ih' : ∀ a ∈ c.attributes, ∀ b ∈ d.attributes,
      ∀ n ∈ a.2.parts, ∀ m ∈ b.2.parts, n.KeysReadable m := by
    intro a ha b hb n hn m hm
    have hnc : n ∈ c.parts := List.mem_flatMap.mpr ⟨a, ha, hn⟩
    have hmd : m ∈ d.parts := List.mem_flatMap.mpr ⟨b, hb, hm⟩
    exact ih n hnc (hcparts n hnc) m (hdparts m hmd)
  obtain ⟨hshape, hrs⟩ := fields_append_inj (Clause.sameForm_attributes hc hkind) ih' hfields
  exact ⟨shape_mk_eq_iff.mpr ⟨hkind, hshape⟩, hrs⟩

/-- No value leaves a trace in a key. -/
theorem cacheKey_shape : ∀ n : Node, n.shape.cacheKey = n.cacheKey := by
  refine fold_shape fun c => ?_
  have hattribute : ∀ a : Attribute String, a.blank.key = a.key := by
    intro a
    cases a <;> rfl
  simp only [Clause.key, Clause.tag_blank, Clause.attributes_blank, List.map_map,
    Function.comp_def, hattribute]

/-- **Built-in trees have one key if and only if they have one shape.** -/
theorem cacheKey_eq_iff {n m : Node} (hn : n.BuiltIn) (hm : m.BuiltIn) :
    n.cacheKey = m.cacheKey ↔ n.shape = m.shape := by
  constructor
  · intro h
    have hread := cacheKey_append_inj n hn m hm [] []
    exact (hread (congrArg (fun k : String => k.toList ++ []) h)).1
  · intro h
    rw [← cacheKey_shape n, h, cacheKey_shape m]

/-- Trees that agree have one key, also if kinds defined elsewhere occur in them. -/
theorem cacheKey_eq_of_agrees {n m : Node} (h : n.agrees m = true) : n.cacheKey = m.cacheKey := by
  rw [← cacheKey_shape n, ((agrees_iff n m).mp h).1, cacheKey_shape m]

/-- **A key is injective up to bound values**: built-in trees agree if and only if they have one key
and bind values that are equal one by one, in preorder. That trees which agree have one key holds
of all kinds. -/
theorem agrees_iff_cacheKey_eq (n m : Node) :
    (n.agrees m = true → n.cacheKey = m.cacheKey) ∧
      (n.BuiltIn → m.BuiltIn →
        (n.agrees m = true ↔
          n.cacheKey = m.cacheKey ∧ EqualValues n.boundValues m.boundValues)) := by
  refine ⟨cacheKey_eq_of_agrees, fun hn hm => ?_⟩
  rw [agrees_iff, cacheKey_eq_iff hn hm, values_eq_boundValues n hn, values_eq_boundValues m hm]

/-- A comparison of a column, with marks in its name and in its type, and a number. -/
def comparedWith (x : Binary64) : Node :=
  ((⟨.column ⟨"it's", some ⟨some "a", "b"⟩, .array (.custom "x\"y") (some "z"), false⟩⟩ : Node).op
    .eq (literal (.float x)))

/-- The two zeros are equal values, so the comparisons agree. -/
theorem agrees_iff_cacheKey_eq_zeros :
    (comparedWith ⟨0⟩).BuiltIn ∧ (comparedWith ⟨0x8000000000000000⟩).BuiltIn ∧
      (comparedWith ⟨0⟩).agrees (comparedWith ⟨0x8000000000000000⟩) = true ∧
      (comparedWith ⟨0⟩).cacheKey = (comparedWith ⟨0x8000000000000000⟩).cacheKey ∧
      EqualValues (comparedWith ⟨0⟩).boundValues
        (comparedWith ⟨0x8000000000000000⟩).boundValues := by
  have hn : (comparedWith ⟨0⟩).BuiltIn := by decide
  have hm : (comparedWith ⟨0x8000000000000000⟩).BuiltIn := by decide
  have hagrees : (comparedWith ⟨0⟩).agrees (comparedWith ⟨0x8000000000000000⟩) = true := by decide
  obtain ⟨hforward, hiff⟩ :=
    agrees_iff_cacheKey_eq (comparedWith ⟨0⟩) (comparedWith ⟨0x8000000000000000⟩)
  exact ⟨hn, hm, hagrees, hforward hagrees, ((hiff hn hm).mp hagrees).2⟩

end Node

end SqlClause
