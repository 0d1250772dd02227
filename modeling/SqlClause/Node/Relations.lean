import SqlClause.Node.Basic

/-!
# The relations that a tree mentions

A column that belongs to a table mentions that relation, and a clause mentions what its parts
mention; a statement keeps its relations to itself. They are listed without duplicates, in the
order in which they are met.

* `Node.nodup_relations`: no relation is listed twice.
-/

namespace SqlClause

namespace Clause

/-- The relations of a clause, from those of its parts. -/
def relations : Clause (List Relation) → List Relation
  | column c => c.table.toList
  | select _ => []
  | c => c.parts.foldl Relation.merge []

end Clause

namespace Node

/-- The relations that the node mentions outside of enclosed statements. -/
def relations : Node → List Relation := fold fun _ c => c.relations

theorem relations_mk (c : Clause Node) : (mk c).relations = (c.map relations).relations :=
  fold_mk ..

theorem nodup_foldl_merge :
    ∀ (lists : List (List Relation)) {rs : List Relation}, rs.Nodup →
      (lists.foldl Relation.merge rs).Nodup
  | [], _, h => h
  | l :: lists, _, h => nodup_foldl_merge lists (Relation.nodup_merge l h)

/-- **No relation is listed twice.** -/
theorem nodup_relations (n : Node) : n.relations.Nodup := by
  obtain ⟨c⟩ := n
  rw [relations_mk]
  unfold Clause.relations
  split
  · rename_i c _
    cases c.table <;> simp
  · exact List.nodup_nil
  · exact nodup_foldl_merge _ List.nodup_nil

end Node

end SqlClause
