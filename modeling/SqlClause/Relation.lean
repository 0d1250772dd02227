/-!
# Relations

A relation is what a column can belong to and a statement can select from: a table, named with or
without a schema. Lists of relations are collected without duplicates, in the order in which the
relations are first met.

* `Relation.mem_merge`: merging loses no relation and adds none;
* `Relation.nodup_merge`: merging keeps a list free of duplicates.
-/

namespace SqlClause

/-- A table or other relation, by its name and, where it is given, its schema. -/
structure Relation where
  schema : Option String
  name : String
deriving DecidableEq, Repr, Inhabited

namespace Relation

/-- A relation without a schema. -/
def unqualified (name : String) : Relation := ⟨none, name⟩

/-- The list with one relation more, unless the list has it. -/
def add (rs : List Relation) (r : Relation) : List Relation := if r ∈ rs then rs else rs ++ [r]

/-- The first list followed by what is new in the second. -/
def merge (rs more : List Relation) : List Relation := more.foldl add rs

@[simp] theorem merge_nil (rs : List Relation) : merge rs [] = rs := rfl

@[simp] theorem merge_cons (rs : List Relation) (r : Relation) (more : List Relation) :
    merge rs (r :: more) = merge (add rs r) more := rfl

theorem mem_add {rs : List Relation} {r x : Relation} : x ∈ add rs r ↔ x ∈ rs ∨ x = r := by
  unfold add
  split
  · rename_i h
    exact ⟨.inl, fun e => e.elim id (fun e => e ▸ h)⟩
  · simp

theorem nodup_add {rs : List Relation} (h : rs.Nodup) (r : Relation) : (add rs r).Nodup := by
  unfold add
  split
  · exact h
  · rename_i hr
    refine List.nodup_append.mpr ⟨h, by simp, fun a ha b hb e => hr ?_⟩
    rw [List.mem_singleton.mp hb] at e
    exact e ▸ ha

theorem mem_merge {x : Relation} :
    ∀ {more rs : List Relation}, x ∈ merge rs more ↔ x ∈ rs ∨ x ∈ more
  | [], _ => by simp
  | r :: more, rs => by
      rw [merge_cons, mem_merge, mem_add, List.mem_cons, or_assoc]

theorem nodup_merge :
    ∀ (more : List Relation) {rs : List Relation}, rs.Nodup → (merge rs more).Nodup
  | [], _, h => h
  | r :: more, _, h => nodup_merge more (nodup_add h r)

theorem merge_append (rs as bs : List Relation) : merge rs (as ++ bs) = merge (merge rs as) bs :=
  List.foldl_append ..

end Relation

end SqlClause
