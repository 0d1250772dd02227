import SqlClause.Proofs.Outcome
import SqlClause.Proofs.Shape
import SqlClause.Schema.Copy

/-!
# Binding columns anew

To rebind an expression is to do something to its references to columns and to nothing else. Which
references an expression has is all that decides whether it can be rebound: the table must have the
columns that the references to the source name.

* `Node.mapColumns_congr`, `Node.mapColumns_mapColumns`: what is done to references is decided by
  the references, and can be done in two steps;
* `Clause.resultUnless_traverse`: a clause can be made from its parts unless one of them fails;
* **`resultUnless_rebind`**: when an expression can be rebound, and what becomes of it.
-/

namespace SqlClause

/-! ## 1. References of a clause -/

namespace Clause

variable {α β : Type}

/-- The reference to a column that the clause is. -/
def columnRef? : Clause α → Option ColumnRef
  | column r => some r
  | _ => none

/-- The clause with `f` done to the reference that it is. -/
def mapColumn (f : ColumnRef → ColumnRef) : Clause α → Clause α
  | column r => column (f r)
  | c => c

theorem eq_column_of_columnRef? {c : Clause α} {r : ColumnRef} (h : c.columnRef? = some r) :
    c = column r := by
  cases c with
  | column r' => rw [Option.some.inj h]
  | _ => cases h

theorem mapColumn_of_columnRef?_eq_none {f : ColumnRef → ColumnRef} {c : Clause α}
    (h : c.columnRef? = none) : c.mapColumn f = c := by
  cases c with
  | column => cases h
  | _ => rfl

theorem columnRef?_mapColumn (f : ColumnRef → ColumnRef) (c : Clause α) :
    (c.mapColumn f).columnRef? = c.columnRef?.map f := by
  cases c <;> rfl

theorem columnRef?_map (f : α → β) (c : Clause α) : (c.map f).columnRef? = c.columnRef? := by
  cases c <;> rfl

theorem mapColumn_map (f : ColumnRef → ColumnRef) (g : α → β) (c : Clause α) :
    (c.map g).mapColumn f = (c.mapColumn f).map g := by
  cases c <;> rfl

theorem mapColumn_mapColumn (f g : ColumnRef → ColumnRef) (c : Clause α) :
    (c.mapColumn f).mapColumn g = c.mapColumn (g ∘ f) := by
  cases c <;> rfl

@[simp] theorem parts_mapColumn (f : ColumnRef → ColumnRef) (c : Clause α) :
    (c.mapColumn f).parts = c.parts := by
  cases c <;> rfl

theorem mapColumn_congr {f g : ColumnRef → ColumnRef} {c : Clause α}
    (h : ∀ r ∈ c.columnRef?, f r = g r) : c.mapColumn f = c.mapColumn g := by
  cases c with
  | column r => exact congrArg column (h r rfl)
  | _ => rfl

end Clause

/-! ## 2. References of a tree -/

namespace Node

/-- The references to columns in a tree, in preorder. -/
def columnRefs (n : Node) : List ColumnRef := n.preorder.filterMap fun m => m.clause.columnRef?

/-- The tree with `f` done to its references to columns. -/
def mapColumns (f : ColumnRef → ColumnRef) : Node → Node := fold fun _ c => mk (c.mapColumn f)

theorem columnRefs_mk (c : Clause Node) :
    (mk c).columnRefs = c.columnRef?.toList ++ c.parts.flatMap columnRefs :=
  filterMap_preorder_mk (fun m => m.clause.columnRef?) c

theorem mapColumns_mk (f : ColumnRef → ColumnRef) (c : Clause Node) :
    (mk c).mapColumns f = mk ((c.mapColumn f).map (mapColumns f)) := by
  rw [mapColumns, fold_mk, Clause.mapColumn_map]

variable {f g : ColumnRef → ColumnRef}

/-- What holds of all references of a node holds of its own and of those of its parts. -/
theorem forall_columnRefs_mk {P : ColumnRef → Prop} {c : Clause Node} :
    (∀ r ∈ (mk c).columnRefs, P r) ↔
      (∀ r ∈ c.columnRef?, P r) ∧ ∀ n ∈ c.parts, ∀ r ∈ n.columnRefs, P r := by
  rw [columnRefs_mk, List.forall_mem_append]
  simp only [Option.mem_toList, List.mem_flatMap]
  refine and_congr_right fun _ => ⟨fun h n hn r hr => h r ⟨n, hn, hr⟩, ?_⟩
  rintro h r ⟨n, hn, hr⟩
  exact h n hn r hr

/-- **What is done to the references is decided by what they are.** -/
theorem mapColumns_congr : ∀ n : Node, (∀ r ∈ n.columnRefs, f r = g r) →
    n.mapColumns f = n.mapColumns g := by
  apply induction
  intro c ih h
  obtain ⟨hown, hparts⟩ := forall_columnRefs_mk.mp h
  rw [mapColumns_mk, mapColumns_mk, Clause.mapColumn_congr hown]
  refine congrArg mk (Clause.map_congr fun n hn => ?_)
  rw [Clause.parts_mapColumn] at hn
  exact ih n hn (hparts n hn)

/-- What is done to the references can be done in two steps. -/
theorem mapColumns_mapColumns : ∀ n : Node,
    (n.mapColumns f).mapColumns g = n.mapColumns (g ∘ f) := by
  apply induction
  intro c ih
  rw [mapColumns_mk, mapColumns_mk, mapColumns_mk, Clause.mapColumn_map,
    Clause.mapColumn_mapColumn, Clause.map_map]
  refine congrArg mk (Clause.map_congr fun n hn => ih n ?_)
  rwa [Clause.parts_mapColumn] at hn

theorem columnRefs_mapColumns (f : ColumnRef → ColumnRef) :
    ∀ n : Node, (n.mapColumns f).columnRefs = n.columnRefs.map f := by
  apply induction
  intro c ih
  rw [mapColumns_mk, columnRefs_mk, columnRefs_mk, Clause.columnRef?_map,
    Clause.columnRef?_mapColumn, Clause.parts_map, Clause.parts_mapColumn, List.map_append,
    List.flatMap_map, List.map_flatMap, List.flatMap_congr ih]
  cases c.columnRef? <;> rfl

/-! ## 3. What does not depend on the references -/

theorem isColumnElement_mapColumns (f : ColumnRef → ColumnRef) :
    ∀ n : Node, (n.mapColumns f).isColumnElement = n.isColumnElement := by
  apply induction
  intro c ih
  have hown : ∀ d : Clause Bool, (d.mapColumn f).isColumnElement = d.isColumnElement := by
    intro d
    cases d <;> rfl
  have hparts : (c.mapColumn f).map (isColumnElement ∘ mapColumns f) =
      (c.mapColumn f).map isColumnElement := by
    refine Clause.map_congr fun n hn => ih n ?_
    rwa [Clause.parts_mapColumn] at hn
  rw [mapColumns_mk, isColumnElement_mk, isColumnElement_mk, Clause.map_map, hparts,
    ← Clause.mapColumn_map, hown]

theorem isText_mapColumns (f : ColumnRef → ColumnRef) (n : Node) :
    (n.mapColumns f).isText = n.isText := by
  obtain ⟨c⟩ := n
  rw [mapColumns_mk]
  cases c <;> rfl

theorem accepts_mapColumns (role : Role) (f : ColumnRef → ColumnRef) (n : Node) :
    role.accepts (n.mapColumns f) = role.accepts n := by
  cases role <;>
    simp only [Role.accepts, isColumnElement_mapColumns, isText_mapColumns]

end Node

/-! ## 4. Clauses made from what their parts become -/

section Traverse

variable {ε α β : Type} {failure : α → ε → Prop} {result : α → β} {f : α → Except ε β}

theorem Attribute.resultUnless_traverse {a : Attribute α}
    (h : ∀ x ∈ a.parts, ResultUnless (failure x) (result x) (f x)) :
    ResultUnless (fun e => ∃ x ∈ a.parts, failure x e) (a.map result) (a.traverse f) := by
  cases a with
  | element part =>
      have hpart := h part (List.mem_singleton_self part)
      exact (hpart.bindPure element).congr fun e => by simp [parts]
  | optionalElement part =>
      cases part with
      | none => exact (ResultUnless.ok _).congr fun e => by simp [parts]
      | some part =>
          have hpart := h part (List.mem_singleton_self part)
          exact (hpart.bindPure fun y => optionalElement (some y)).congr fun e => by simp [parts]
  | elementList parts => exact (ResultUnless.mapM h).bindPure elementList
  | _ => exact (ResultUnless.ok _).congr fun e => by simp [parts]

theorem Select.resultUnless_traverse {s : Select α}
    (h : ∀ x ∈ (Clause.select s).parts, ResultUnless (failure x) (result x) (f x)) :
    ResultUnless (fun e => ∃ x ∈ (Clause.select s).parts, failure x e) (s.map result)
      (s.traverse f) := by
  have hmem : ∀ x, x ∈ (Clause.select s).parts ↔ x ∈ s.columns ∨ x ∈ s.criterion ∨ x ∈ s.groupBy ∨
      x ∈ s.orderBy ∨ x ∈ s.distinctOn ∨ x ∈ s.preColumns ∨ x ∈ s.postCriteria ∨
      x ∈ s.postBody := by
    intro x
    simp [Clause.parts, Clause.attributes, Attribute.parts]
  have hlist : ∀ xs : List α, (∀ x ∈ xs, x ∈ (Clause.select s).parts) →
      ResultUnless (fun e => ∃ x ∈ xs, failure x e) (xs.map result) (xs.mapM f) :=
    fun xs hxs => ResultUnless.mapM fun x hx => h x (hxs x hx)
  unfold Select.traverse
  refine ResultUnless.congr
    (.bind (hlist s.columns fun x hx => (hmem x).mpr (by tauto))
    (.bind (hlist s.groupBy fun x hx => (hmem x).mpr (by tauto))
    (.bind (hlist s.orderBy fun x hx => (hmem x).mpr (by tauto))
    (.bind (hlist s.distinctOn fun x hx => (hmem x).mpr (by tauto))
    (.bind (hlist s.preColumns fun x hx => (hmem x).mpr (by tauto))
    (.bind (hlist s.postCriteria fun x hx => (hmem x).mpr (by tauto))
    (.bind (hlist s.postBody fun x hx => (hmem x).mpr (by tauto))
    (?_ : ResultUnless (fun e => ∃ x ∈ s.criterion, failure x e) (s.map result) _))))))))
    fun e => ?_
  · unfold Select.map
    cases hc : s.criterion with
    | none => exact (ResultUnless.ok _).congr fun e => by simp
    | some c =>
        have hpart := h c ((hmem c).mpr (.inr (.inl hc)))
        have hsome := (hpart.map some).bindPure fun criterion => { s.map result with criterion }
        refine hsome.congr fun e => ?_
        simp
  · simp only [hmem, or_and_right, exists_or]
    exact iff_of_eq (by ac_rfl)

/-- **A clause can be made from what its parts become** unless one of the parts fails. -/
theorem Clause.resultUnless_traverse {c : Clause α}
    (h : ∀ x ∈ c.parts, ResultUnless (failure x) (result x) (f x)) :
    ResultUnless (fun e => ∃ x ∈ c.parts, failure x e) (c.map result) (c.traverse f) := by
  have hone : ∀ x, c.parts = [x] →
      ResultUnless (fun e => ∃ x ∈ c.parts, failure x e) (result x) (f x) :=
    fun x hx => (h x (hx ▸ List.mem_singleton_self x)).congr fun e => by simp [hx]
  have htwo : ∀ x y, c.parts = [x, y] → ∀ g : β → β → Clause β,
      ResultUnless (fun e => ∃ x ∈ c.parts, failure x e) (g (result x) (result y))
        (do return g (← f x) (← f y)) := by
    intro x y hxy g
    have hx := h x (hxy ▸ List.mem_cons_self)
    have hy := h y (hxy ▸ List.mem_cons_of_mem x (List.mem_singleton_self y))
    exact (hx.bind (hy.bindPure (g (result x)))).congr fun e => by simp [hxy]
  have hlist : ∀ xs, c.parts = xs ++ [] →
      ResultUnless (fun e => ∃ x ∈ c.parts, failure x e) (xs.map result) (xs.mapM f) := by
    intro xs hxs
    rw [List.append_nil] at hxs
    exact hxs ▸ ResultUnless.mapM h
  cases c with
  | column | bind | text | keyword =>
      refine (ResultUnless.ok _).congr fun e => ⟨False.elim, ?_⟩
      rintro ⟨x, hx, -⟩
      cases hx
  | binary left op right type => exact htwo left right rfl (binary · op · type)
  | unary element op modifier => exact (hone element rfl).bindPure (unary · op modifier)
  | list clauses op => exact (hlist clauses rfl).bindPure (list · op)
  | grouping element => exact (hone element rfl).bindPure grouping
  | function name arguments type => exact (hlist arguments rfl).bindPure (function name · type)
  | cast element type => exact (hone element rfl).bindPure (cast · type)
  | typeCoerce element type => exact (hone element rfl).bindPure (typeCoerce · type)
  | label name element => exact (hone element rfl).bindPure (label name)
  | select s => exact (Select.resultUnless_traverse h).bindPure select
  | hint element => exact (hone element rfl).bindPure hint
  | orderedAggregate target type orderBy =>
      exact htwo target orderBy rfl (orderedAggregate · type ·)
  | distinctOn terms => exact (hlist terms rfl).bindPure distinctOn
  | custom tag attributes =>
      have hattributes := ResultUnless.mapM fun a (ha : a ∈ attributes) =>
        (Attribute.resultUnless_traverse fun x hx =>
          h x (List.mem_flatMap.mpr ⟨a, ha, hx⟩)).bindPure (Prod.mk a.1)
      refine (hattributes.bindPure (custom tag)).congr fun e => ?_
      constructor
      · rintro ⟨a, ha, x, hx, hfailure⟩
        exact ⟨x, List.mem_flatMap.mpr ⟨a, ha, hx⟩, hfailure⟩
      · rintro ⟨x, hx, hfailure⟩
        obtain ⟨a, ha, hx⟩ := List.mem_flatMap.mp hx
        exact ⟨a, ha, x, hx, hfailure⟩

end Traverse

/-! ## 5. Rebinding -/

namespace Table

/-- What becomes of a reference if the columns of the source are bound to those of the table. -/
def rebound (t : Table) (source : Option Relation) (r : ColumnRef) : ColumnRef :=
  if r.table = source then ((t.column? r.name).map Column.ref).getD r else r

/-- The failure is that the table lacks a column that one of the references to the source names. -/
def Lacks (t : Table) (source : Option Relation) (refs : List ColumnRef) (e : Error) : Prop :=
  ∃ r ∈ refs, r.table = source ∧ t.column? r.name = none ∧ e = .columnNotFound t.name r.name

theorem rebound_of_ne {t : Table} {source : Option Relation} {r : ColumnRef}
    (h : r.table ≠ source) : t.rebound source r = r := if_neg h

theorem rebound_of_column? {t : Table} {source : Option Relation} {r : ColumnRef} {c : Column}
    (h : r.table = source) (hcolumn : t.column? r.name = some c) : t.rebound source r = c.ref := by
  rw [rebound, if_pos h, hcolumn]
  rfl

/-- A reference stays as it is if the table lacks the column. -/
theorem rebound_of_column?_eq_none {t : Table} {source : Option Relation} {r : ColumnRef}
    (hcolumn : t.column? r.name = none) : t.rebound source r = r := by
  rw [rebound, hcolumn]
  exact ite_self r

theorem lacks_flatMap {α : Type} {t : Table} {source : Option Relation} {f : α → List ColumnRef}
    {as : List α} {e : Error} :
    t.Lacks source (as.flatMap f) e ↔ ∃ a ∈ as, t.Lacks source (f a) e := by
  constructor
  · rintro ⟨r, hr, hlacks⟩
    obtain ⟨a, ha, hr⟩ := List.mem_flatMap.mp hr
    exact ⟨a, ha, r, hr, hlacks⟩
  · rintro ⟨a, ha, r, hr, hlacks⟩
    exact ⟨r, List.mem_flatMap.mpr ⟨a, ha, hr⟩, hlacks⟩

end Table

section Steps

variable {source : Relation} {t : Table} {n m : Node} {c : Clause Node} {e : Error}

theorem rebind_of_answer (h : rebindColumn source t n = .ok (some m)) :
    rebind (some source) (some t) n = .ok m := by
  obtain ⟨c⟩ := n
  show (Node.mk c).replace (rebindColumn source t) = _
  rw [Node.replace_mk, h]
  rfl

theorem rebind_of_error (h : rebindColumn source t n = .error e) :
    rebind (some source) (some t) n = .error e := by
  obtain ⟨c⟩ := n
  show (Node.mk c).replace (rebindColumn source t) = _
  rw [Node.replace_mk, h]
  rfl

/-- What is no column of the source is rebound part by part. -/
theorem rebind_of_none (h : rebindColumn source t ⟨c⟩ = .ok none) :
    rebind (some source) (some t) ⟨c⟩ =
      (do return Node.mk (← c.traverse (rebind (some source) (some t)))) := by
  show (Node.mk c).replace (rebindColumn source t) = _
  rw [Node.replace_mk, h]
  rfl

end Steps

/-- A reference to the source becomes the table's column of the name, if the table has one. -/
theorem resultUnless_rebind_column (source : Relation) (t : Table) (r : ColumnRef) :
    ResultUnless (t.Lacks (some source) [r]) ⟨.column (t.rebound (some source) r)⟩
      (rebind (some source) (some t) ⟨.column r⟩) := by
  by_cases htable : r.table = some source
  · have hask : rebindColumn source t ⟨.column r⟩ = some <$> t.require r.name := if_pos htable
    cases hcolumn : t.column? r.name with
    | none =>
        have hmissing : t.require r.name = .error (.columnNotFound t.name r.name) :=
          Table.require_eq_error_iff.mpr ⟨by rw [Table.expr?, hcolumn]; rfl, rfl⟩
        rw [hmissing] at hask
        rw [rebind_of_error hask]
        exact ⟨r, List.mem_singleton_self r, htable, hcolumn, rfl⟩
    | some c =>
        have hfound : t.require r.name = .ok c.expr :=
          Table.require_eq_ok_iff.mpr (by rw [Table.expr?, hcolumn]; rfl)
        rw [hfound] at hask
        rw [rebind_of_answer hask, Table.rebound_of_column? htable hcolumn]
        refine ⟨rfl, ?_⟩
        rintro e ⟨r', hr', -, hmissing, -⟩
        rw [List.mem_singleton.mp hr', hcolumn] at hmissing
        cases hmissing
  · have hask : rebindColumn source t ⟨.column r⟩ = .ok none := if_neg htable
    rw [rebind_of_none hask, Table.rebound_of_ne htable]
    refine ⟨rfl, ?_⟩
    rintro e ⟨r', hr', hother, -⟩
    rw [List.mem_singleton.mp hr'] at hother
    exact htable hother

/-- **An expression can be rebound** unless the table lacks a column of the source that the
expression refers to, and what changes is its references to the source. -/
theorem resultUnless_rebind (source : Relation) (t : Table) : ∀ n : Node,
    ResultUnless (t.Lacks (some source) n.columnRefs) (n.mapColumns (t.rebound (some source)))
      (rebind (some source) (some t) n) := by
  apply Node.induction
  intro c ih
  rw [Node.columnRefs_mk, Node.mapColumns_mk]
  cases hreference : c.columnRef? with
  | some r =>
      obtain rfl := Clause.eq_column_of_columnRef? hreference
      exact resultUnless_rebind_column source t r
  | none =>
      have hask : rebindColumn source t ⟨c⟩ = .ok none := by
        cases c with
        | column => cases hreference
        | _ => rfl
      rw [rebind_of_none hask, Clause.mapColumn_of_columnRef?_eq_none hreference]
      refine ((Clause.resultUnless_traverse ih).bindPure Node.mk).congr fun e => ?_
      rw [Option.toList_none, List.nil_append, Table.lacks_flatMap]

end SqlClause
