import Mathlib.Data.List.Induction
import SqlClause.Proofs.Rebinding
import SqlClause.Proofs.Template

/-!
# What a statement selects from

Every clause merges the relations of its parts, which have been merged before, part by part. All
these mergers come to one: the relations of a tree are those of the columns that a walk in preorder
comes to, each where it is met first. The walk does not go into statements, which keep their
relations to themselves, and a statement selects from what the walk meets in its columns and then
in its criterion.

* `Relation.merge_merge`: what is merged into a list can be merged beforehand;
* `Relation.merge_nil_eq_eraseDups`: merging keeps what comes first;
* `Node.relations_eq_merge`: one merger for the whole tree;
* `Node.render_select`: where the relations stand in the text of a statement;
* **`Node.relations_eq_eraseDups`**: what a tree mentions, and what a statement selects from.
-/

namespace SqlClause

/-! ## 1. Merging -/

namespace Relation

theorem add_of_mem {rs : List Relation} {r : Relation} (h : r ∈ rs) : add rs r = rs := if_pos h

theorem add_of_not_mem {rs : List Relation} {r : Relation} (h : r ∉ rs) : add rs r = rs ++ [r] :=
  if_neg h

/-- **What is merged into a list can be merged beforehand.** -/
theorem merge_merge : ∀ (more rs ss : List Relation),
    merge rs (merge ss more) = merge (merge rs ss) more
  | [], _, _ => rfl
  | r :: more, rs, ss => by
      have hadd : merge rs (add ss r) = add (merge rs ss) r := by
        by_cases h : r ∈ ss
        · rw [add_of_mem h, add_of_mem (mem_merge.mpr (.inr h))]
        · rw [add_of_not_mem h, merge_append]
          rfl
      rw [merge_cons, merge_merge more, hadd, merge_cons]

/-- Lists are merged one after the other, or all of them at once. -/
theorem foldl_merge_map {α : Type} (f : α → List Relation) : ∀ (as : List α) (rs : List Relation),
    (as.map fun a => merge [] (f a)).foldl merge rs = merge rs (as.flatMap f)
  | [], _ => rfl
  | a :: as, rs => by
      rw [List.map_cons, List.foldl_cons, merge_merge, merge_nil, foldl_merge_map f as,
        List.flatMap_cons, merge_append]

/-- **Merging keeps every relation where it comes first.** -/
theorem merge_nil_eq_eraseDups (rs : List Relation) : merge [] rs = rs.eraseDups := by
  induction rs using List.reverseRecOn with
  | nil => rfl
  | append_singleton rs r ih =>
      have hlast : merge [] (rs ++ [r]) = add rs.eraseDups r := by
        rw [merge_append, ih]
        rfl
      rw [hlast, List.eraseDups_append]
      by_cases h : r ∈ rs
      · rw [add_of_mem (List.mem_eraseDups.mpr h)]
        simp [List.removeAll, h]
      · rw [add_of_not_mem (mt List.mem_eraseDups.mp h)]
        simp [List.removeAll, h, List.eraseDups_cons]

end Relation

/-! ## 2. The walk outside of statements -/

namespace Clause

variable {α β : Type}

/-- The parts of the clause, unless it is a statement. -/
def outerParts : Clause α → List α
  | select _ => []
  | c => c.parts

theorem outerParts_map (f : α → β) (c : Clause α) : (c.map f).outerParts = c.outerParts.map f := by
  cases c with
  | select s => rfl
  | _ => exact parts_map f _

/-- A clause is a column, a statement, or merges the relations of its parts. -/
theorem relations_of_columnRef?_eq_none {c : Clause (List Relation)} (h : c.columnRef? = none) :
    c.relations = c.outerParts.foldl Relation.merge [] := by
  cases c with
  | column => cases h
  | _ => rfl

end Clause

namespace Node

/-- A node and its descendants in preorder, without what is inside of statements. -/
def outerPreorder : Node → List Node := fold fun n c => n :: c.outerParts.flatten

/-- The tables of the columns that the walk outside of statements comes to, as often as it does. -/
def mentions (n : Node) : List Relation :=
  n.outerPreorder.filterMap fun m => m.clause.columnRef?.bind (·.table)

theorem mentions_mk (c : Clause Node) :
    (mk c).mentions =
      (c.columnRef?.bind (·.table)).toList ++ c.outerParts.flatMap mentions := by
  rw [mentions, outerPreorder, fold_mk, Clause.outerParts_map]
  exact filterMap_cons_flatten ..

/-- **All mergers in a tree come to one.** -/
theorem relations_eq_merge : ∀ n : Node, n.relations = Relation.merge [] n.mentions := by
  apply induction
  intro c ih
  rw [relations_mk, mentions_mk]
  cases hreference : c.columnRef? with
  | some r =>
      obtain rfl := Clause.eq_column_of_columnRef? hreference
      show r.table.toList = Relation.merge [] (r.table.toList ++ [])
      cases r.table <;> rfl
  | none =>
      have hmapped : (c.map relations).columnRef? = none := by
        rw [Clause.columnRef?_map, hreference]
      have hparts : c.outerParts.map relations =
          c.outerParts.map fun n => Relation.merge [] n.mentions := by
        refine List.map_congr_left fun n hn => ih n ?_
        cases c with
        | select => cases hn
        | _ => exact hn
      rw [Clause.relations_of_columnRef?_eq_none hmapped, Clause.outerParts_map, hparts,
        Relation.foldl_merge_map]
      rfl

end Node

namespace Select

/-- The tables that the walk outside of statements comes to in the columns of a statement and then
in its criterion. -/
def mentions (s : Statement) : List Relation :=
  (s.columns ++ s.criterion.toList).flatMap Node.mentions

/-- The mergers of a statement come to one as well. -/
theorem relations_eq_merge (s : Statement) : s.relations = Relation.merge [] s.mentions := by
  rw [relations, mentions, ← Relation.foldl_merge_map]
  exact congrArg (List.foldl Relation.merge [])
    (List.map_congr_left fun n _ => n.relations_eq_merge)

theorem nodup_relations (s : Statement) : s.relations.Nodup :=
  Node.nodup_foldl_merge _ List.nodup_nil

/-- A statement selects once from what is met in it, and from nothing else. -/
theorem count_relations (s : Statement) (r : Relation) :
    s.relations.count r = if r ∈ s.mentions then 1 else 0 := by
  have hmem : r ∈ s.relations ↔ r ∈ s.mentions := by
    rw [relations_eq_merge, Relation.mem_merge]
    simp
  rw [s.nodup_relations.count, if_congr hmem rfl rfl]

end Select

/-! ## 3. The text of a statement -/

namespace Layout

variable {α : Type}

/-- A statement up to its columns. -/
def untilColumns (σ : Style) (s : Select α) : Layout α :=
  fixed "SELECT " ++ distinctWord σ s ++ clausesBefore s.preColumns ++ selectList s.columns

/-- A statement from its criterion on. -/
def fromCriterion (s : Select α) : Layout α :=
  criterion s.criterion ++ clausesAfter s.postCriteria ++ termList " GROUP BY " s.groupBy
    ++ termList " ORDER BY " s.orderBy
    ++ fixed (RenderM.numberText " LIMIT " s.limit ++ RenderM.numberText " OFFSET " s.offset)
    ++ clausesAfter s.postBody

theorem select_eq (σ : Style) (sources : List Relation) (s : Select α) :
    select σ sources s = untilColumns σ s ++ fixed (fromText σ sources) ++ fromCriterion s := by
  simp only [select, untilColumns, fromCriterion, List.append_assoc]

end Layout

namespace Node

open Layout RenderM

/-- **Between its columns and its criterion a statement names what it selects from.** -/
theorem render_select {settings : Settings} (h : settings.registry.element? "select" = some .select)
    (s : Statement) (inDdl : Bool) :
    (select s).render settings = (do
      let columns ← (untilColumns (settings.style inDdl) (s.map render)).run settings
      let rest ← (fromCriterion (s.map render)).run settings
      return columns ++ fromText (settings.style inDdl) s.relations ++ rest) := by
  have hrule : (select s).render settings = _ := render_of_rule h
  have hlayout := select_at settings inDdl s.relations (s.map render)
  rw [hrule]
  refine hlayout.trans ?_
  rw [select_eq]
  simp only [run_append, run_fixed, bind_at, pure_at, pure_bind, bind_assoc]

/-! ## 4. What is listed -/

/-- **What a tree mentions and what a statement selects from.** The relations of a tree are the
tables of its columns outside of statements, in preorder, each where it comes first and once. Those
of a statement are the same for its columns followed by its criterion, and between the two its text
names them in this order: so what such a column belongs to is named once, and nothing else is. -/
theorem relations_eq_eraseDups :
    (∀ n : Node, n.relations = n.mentions.eraseDups ∧ n.relations.Nodup) ∧
    ∀ s : Statement, s.relations = s.mentions.eraseDups ∧ s.relations.Nodup ∧
      (∀ r, s.relations.count r = if r ∈ s.mentions then 1 else 0) ∧
      ∀ settings : Settings, settings.registry.element? "select" = some .select →
        ∀ inDdl, (select s).render settings = (do
          let columns ← (untilColumns (settings.style inDdl) (s.map render)).run settings
          let rest ← (fromCriterion (s.map render)).run settings
          return columns ++ fromText (settings.style inDdl) s.relations ++ rest) := by
  refine ⟨fun n => ⟨?_, n.nodup_relations⟩, fun s => ⟨?_, s.nodup_relations,
    s.count_relations, fun settings hrule => render_select hrule s⟩⟩
  · rw [relations_eq_merge, Relation.merge_nil_eq_eraseDups]
  · rw [Select.relations_eq_merge, Relation.merge_nil_eq_eraseDups]

/-- The guests and whether their rooms are vacated, with a statement among the columns. -/
def guests : Statement :=
  let vacated := Select.ofColumns [tableColumn "archive" "room" .integer]
  let room := tableColumn "guests" "room" .integer
  (Select.ofColumns [tableColumn "guests" "id" .integer,
      (tableColumn "rooms" "number" .integer).op .eq (select vacated).grouping]).addCriterion
    (room.op .eq (tableColumn "rooms" "number" .integer))

/-- The guests and the rooms are named once, though both are met again in the criterion, and the
archive is named where it belongs. -/
theorem relations_eq_eraseDups_guests :
    (⟨.generic, .core, false⟩ : Settings).registry.element? "select" = some .select ∧
      guests.mentions = [⟨none, "guests"⟩, ⟨none, "rooms"⟩, ⟨none, "guests"⟩,
        ⟨none, "rooms"⟩] ∧
      guests.relations = [⟨none, "guests"⟩, ⟨none, "rooms"⟩] ∧
      (select guests).render ⟨.generic, .core, false⟩ .start =
        (.ok ("SELECT guests.id, rooms.number = (SELECT archive.room FROM archive)"
          ++ " FROM guests, rooms" ++ " WHERE guests.room = rooms.number"), .start) := by
  have hrule : (⟨.generic, .core, false⟩ : Settings).registry.element? "select" =
      some .select := rfl
  have hmentions : guests.mentions = [⟨none, "guests"⟩, ⟨none, "rooms"⟩, ⟨none, "guests"⟩,
      ⟨none, "rooms"⟩] := rfl
  obtain ⟨hrelations, -, -, hrender⟩ := relations_eq_eraseDups.2 guests
  refine ⟨hrule, hmentions, ?_, ?_⟩
  · rw [hrelations, hmentions]
    rfl
  · rw [hrender ⟨.generic, .core, false⟩ hrule false]
    rfl

end Node

end SqlClause
