import SqlClause.Function
import SqlClause.Proofs.Arguments
import SqlClause.Proofs.Conjunction
import SqlClause.Proofs.Sequence
import SqlClause.Proofs.Sources

/-!
# Aggregates fed in an order

The argument of an ordered aggregate is its target with the terms of the ordering behind it. One
term stands as it is and several stand as a list, but in nothing that is done with the argument does
it matter which: the terms are written one after the other, mention their relations one after the
other, and leave the type to the target.

* `orderedAggregate_eq_error_iff`: the failures, in order;
* `Node.mentions_orderingOf`, `Node.render_orderingOf`: one term and several are alike;
* `Node.relations_of_mentions`: the relations of several nodes together;
* `Compiler.process_orderedAggregate`: the target and then the terms;
* **`orderedAggregate_feeds_in_order`**: ordered aggregates from their arguments to their text.
-/

namespace SqlClause

/-! ## 1. Building -/

/-- An ordered aggregate of what its arguments are read as. -/
def Node.ordered (target orderBy : Node) : Node :=
  ⟨.orderedAggregate target target.dataType orderBy⟩

/-- Terms that are read have an ordering unless there are none. -/
theorem exists_orderingOf {terms : List Argument} {ts : List Node}
    (hts : terms.mapM (coerce .expression) = .ok ts) (h : terms ≠ []) :
    ∃ n, orderingOf ts = some n := by
  have hlength := (forall₂_of_mapM_eq_ok hts).length_eq
  match ts with
  | [] => exact absurd (List.length_eq_zero_iff.mp hlength) h
  | [term] => exact ⟨term, rfl⟩
  | term :: next :: rest => exact ⟨.commaList (term :: next :: rest), rfl⟩

theorem orderedAggregate_eq (target : Argument) (terms : List Argument) :
    orderedAggregate target terms = (do
      let t ← coerce .expression target
      let ts ← terms.mapM (coerce .expression)
      match orderingOf ts with
      | none => throw (.empty .orderByTerms)
      | some orderBy => return t.ordered orderBy) := rfl

/-- With terms, an ordered aggregate is built of what its arguments are read as. -/
theorem orderedAggregate_of_ok {target : Argument} {terms : List Argument} {t n : Node}
    {ts : List Node} (ht : coerce .expression target = .ok t)
    (hts : terms.mapM (coerce .expression) = .ok ts) (hn : orderingOf ts = some n) :
    orderedAggregate target terms = .ok (t.ordered n) := by
  rw [orderedAggregate_eq, ht, hts]
  show (match orderingOf ts with
    | none => throw (.empty .orderByTerms)
    | some orderBy => return t.ordered orderBy : Except Error Node) = _
  rw [hn]
  rfl

/-- An argument that is no expression is the failure, the target before the terms. -/
theorem orderedAggregate_of_error {target : Argument} {terms : List Argument} {e : Error}
    (h : (target :: terms).mapM (coerce .expression) = .error e) :
    orderedAggregate target terms = .error e := by
  rw [List.mapM_cons] at h
  rw [orderedAggregate_eq]
  cases ht : coerce .expression target with
  | error e' =>
      rw [ht] at h
      cases h
      rfl
  | ok t =>
      cases hts : terms.mapM (coerce .expression) with
      | error e' =>
          rw [ht, hts] at h
          cases h
          rfl
      | ok ts =>
          rw [ht, hts] at h
          cases h

theorem orderedAggregate_nil {target : Argument} {t : Node}
    (ht : coerce .expression target = .ok t) :
    orderedAggregate target [] = .error (.empty .orderByTerms) := by
  rw [orderedAggregate_eq, ht]
  rfl

/-- **The failures of an ordered aggregate**: that of the first argument that is no expression, the
target before the terms, and otherwise that there are no terms. -/
theorem orderedAggregate_eq_error_iff {target : Argument} {terms : List Argument} {e : Error} :
    orderedAggregate target terms = .error e ↔
      FirstFailure (coerce .expression) (target :: terms) e ∨
        (∃ t, coerce .expression target = .ok t) ∧ terms = [] ∧ e = .empty .orderByTerms := by
  rw [← mapM_eq_error_iff]
  constructor
  · intro h
    cases hall : (target :: terms).mapM (coerce .expression) with
    | error e' =>
        rw [orderedAggregate_of_error hall] at h
        exact .inl (congrArg Except.error (Except.error.inj h))
    | ok all =>
        -- all arguments are read, so nothing but terms can be missing
        have hread := exists_mapM_eq_ok_iff.mp ⟨all, hall⟩
        obtain ⟨t, ht⟩ := hread target List.mem_cons_self
        obtain ⟨ts, hts⟩ := exists_mapM_eq_ok_iff.mpr fun a ha =>
          hread a (List.mem_cons_of_mem target ha)
        by_cases hterms : terms = []
        · rw [hterms, orderedAggregate_nil ht] at h
          exact .inr ⟨⟨t, ht⟩, hterms, (Except.error.inj h).symm⟩
        · obtain ⟨n, hn⟩ := exists_orderingOf hts hterms
          rw [orderedAggregate_of_ok ht hts hn] at h
          cases h
  · rintro (h | ⟨⟨t, ht⟩, rfl, rfl⟩)
    · exact orderedAggregate_of_error h
    · exact orderedAggregate_nil ht

/-! ## 2. One term or several -/

namespace Node

variable {terms : List Node} {n : Node}

/-- **The terms mention their relations one after the other.** -/
theorem mentions_orderingOf (h : orderingOf terms = some n) :
    n.mentions = terms.flatMap mentions := by
  match terms, h with
  | [term], h =>
      obtain rfl := Option.some.inj h
      exact (List.flatMap_singleton mentions term).symm
  | term :: next :: rest, h =>
      obtain rfl := Option.some.inj h
      have hlist : (commaList (term :: next :: rest)).mentions = _ := mentions_mk _
      rw [hlist]
      simp [Clause.columnRef?, Clause.outerParts, Clause.parts, Clause.attributes, Attribute.parts]

/-- **The terms are rendered one after the other**, with commas between them. -/
theorem render_orderingOf {s : Settings} (hlist : s.registry.element? "clauselist" = some .list)
    (h : orderingOf terms = some n) : n.render s = renderAll ", " terms s := by
  match terms, h with
  | [term], h =>
      obtain rfl := Option.some.inj h
      rw [renderAll, List.map_singleton, Layout.joined_eq_run, Layout.separated, Layout.run_part]
  | term :: next :: rest, h =>
      obtain rfl := Option.some.inj h
      have hrule : (commaList (term :: next :: rest)).render s = _ := render_of_rule hlist
      exact hrule

/-- **The relations of several nodes together**: those that each of them has, without what comes
again. -/
theorem relations_of_mentions {ns : List Node} (h : n.mentions = ns.flatMap mentions) :
    n.relations = (ns.flatMap relations).eraseDups := by
  have heach : (ns.map fun m => Relation.merge [] m.mentions) =
      ns.map fun m => Relation.merge [] m.relations := by
    refine List.map_congr_left fun m _ => ?_
    rw [relations_eq_merge, Relation.merge_merge]
    rfl
  rw [relations_eq_merge, h, ← Relation.foldl_merge_map, heach, Relation.foldl_merge_map,
    Relation.merge_nil_eq_eraseDups]

theorem mentions_ordered (target orderBy : Node) :
    (target.ordered orderBy).mentions = target.mentions ++ orderBy.mentions := by
  rw [ordered, mentions_mk]
  simp [Clause.columnRef?, Clause.outerParts, Clause.parts, Clause.attributes, Attribute.parts]

/-- An ordered aggregate needs no parentheses beside any operator. -/
theorem selfGroup_ordered (target orderBy : Node) (against : Option Operator) :
    (target.ordered orderBy).selfGroup against = target.ordered orderBy := by
  have hneeds : (target.ordered orderBy).needsGrouping against = false := by
    cases against with
    | none => rfl
    | some o => exact needsGrouping_some _ o
  rw [selfGroup, hneeds]
  rfl

theorem dataType_ordered (target orderBy : Node) :
    (target.ordered orderBy).dataType = target.dataType := dataType_mk _

/-- The target is rendered, and then what it is ordered by. -/
theorem render_ordered {s : Settings}
    (h : s.registry.element? "aggregate_order_by" = some .orderedAggregate)
    (target orderBy : Node) : (target.ordered orderBy).render s = (do
      return (← target.render s) ++ " ORDER BY " ++ (← orderBy.render s)) := by
  have hrule : (target.ordered orderBy).render s = _ := render_of_rule h
  exact hrule

end Node

/-- What `array_agg` makes of one argument. -/
theorem arrayAggregate_of_ok {a : Argument} {n : Node} (h : coerce .expression a = .ok n)
    (arrayOf : DataType → DataType) : arrayAggregate [a] none arrayOf =
      .ok (.function "array_agg" [n] (collectedType arrayOf n.dataType)) := by
  rw [arrayAggregate, List.mapM_cons, h]
  rfl

/-! ## 3. Compiling -/

namespace Compiler

variable {c : Compiler}

/-- **The target is processed, and then the terms**, one after the other. -/
theorem process_orderedAggregate
    (haggregate : c.settings.registry.element? "aggregate_order_by" = some .orderedAggregate)
    (hlist : c.settings.registry.element? "clauselist" = some .list) (target : Node)
    {terms : List Node} {n : Node} (hn : orderingOf terms = some n) :
    c.process (target.ordered n) = c.run (do
      return (← target.render) ++ " ORDER BY " ++ (← Node.renderAll ", " terms)) := by
  rw [process, run, Node.render_ordered haggregate, Node.render_orderingOf hlist hn]
  rfl

end Compiler

open Compiler

/-- **Ordered aggregates from their arguments to their text.** Building one fails with the failure
of the first argument that is no expression, the target before the terms, or if there are no terms.
Otherwise it is built, of one term as of several. It has the type of the target, stands without
parentheses beside every operator, and mentions the relations of the target and then of the terms,
each once. With the rules of PostgreSQL it is processed like the target and then the terms, with
commas between these; if all of them compile, it compiles to the text of the target, `ORDER BY` and
their texts, and binds the values of the target and then those of the terms. And `array_agg` makes
of it what it makes of the target: the type of an array if that is one, or else an array of it. -/
theorem orderedAggregate_feeds_in_order (target : Argument) (terms : List Argument) :
    (∀ e, orderedAggregate target terms = .error e ↔
      FirstFailure (coerce .expression) (target :: terms) e ∨
        (∃ t, coerce .expression target = .ok t) ∧ terms = [] ∧ e = .empty .orderByTerms) ∧
    ∀ t ts, coerce .expression target = .ok t → terms.mapM (coerce .expression) = .ok ts →
      terms ≠ [] → ∃ n, orderedAggregate target terms = .ok n ∧
        n.dataType = t.dataType ∧
        (∀ against, n.selfGroup against = n) ∧
        n.relations = (t.relations ++ ts.flatMap Node.relations).eraseDups ∧
        (∀ c : Compiler, c.settings.registry = .postgresql → c.process n = c.run (do
          return (← t.render) ++ " ORDER BY " ++ (← Node.renderAll ", " ts))) ∧
        (∀ (s : Settings) (collected : List Value) (result : Node → Compiled),
          s.registry = .postgresql →
          (∀ m ∈ t :: ts, ((having s collected).compile m).1 = .ok (result m)) →
            ∃ texts, (having s (result t).params).processEach ts =
                (.ok texts, having s ((result t).params ++ ts.flatMap fun m => (result m).params)) ∧
              (s.literalBinds = true → texts = ts.map fun m => (result m).sql) ∧
              ((having s collected).compile n).1 =
                .ok ⟨(result t).sql ++ " ORDER BY " ++ ", ".intercalate texts,
                  (result t).params ++ ts.flatMap fun m => (result m).params⟩) ∧
        ∃ fed unfed, arrayAggregate [.element n] none .postgresArray = .ok fed ∧
          arrayAggregate [target] none .postgresArray = .ok unfed ∧
          fed.dataType = unfed.dataType ∧
          fed.dataType = if t.dataType.isArray then t.dataType else .postgresArray t.dataType := by
  refine ⟨fun e => orderedAggregate_eq_error_iff, fun t ts ht hts hterms => ?_⟩
  obtain ⟨orderBy, horderBy⟩ := exists_orderingOf hts hterms
  have hmentions : (t.ordered orderBy).mentions = (t :: ts).flatMap Node.mentions := by
    rw [Node.mentions_ordered, Node.mentions_orderingOf horderBy, List.flatMap_cons]
  have hprocess : ∀ c : Compiler, c.settings.registry = .postgresql →
      c.process (t.ordered orderBy) = c.run (do
        return (← t.render) ++ " ORDER BY " ++ (← Node.renderAll ", " ts)) := by
    intro c hc
    refine process_orderedAggregate ?_ ?_ t horderBy <;> rw [hc] <;> rfl
  refine ⟨t.ordered orderBy, orderedAggregate_of_ok ht hts horderBy, Node.dataType_ordered _ _,
    Node.selfGroup_ordered _ _, Node.relations_of_mentions hmentions, hprocess,
    fun s collected result hs hresult => ?_, ?_⟩
  · obtain ⟨text, htarget, htext⟩ := process_of_compile (hresult t List.mem_cons_self) []
    obtain ⟨texts, hprocessed, htexts⟩ := processEach_of_compile
      (fun m hm => hresult m (List.mem_cons_of_mem t hm)) (result t).params
    refine ⟨texts, hprocessed, htexts, compile_of_process ?_⟩
    rw [hprocess _ hs, ← htext (.inl rfl)]
    refine (run_bind_of_ok htarget _).trans ?_
    refine (run_renderAll _ ", " ts (text ++ " ORDER BY " ++ ·)).trans ?_
    rw [List.nil_append, hprocessed]
    rfl
  · have hself : coerce .expression (.element (t.ordered orderBy)) = .ok (t.ordered orderBy) :=
      coerceWith_of_accepts rfl .default
    have htype : ∀ n : Node, (Node.function "array_agg" [n]
        (collectedType .postgresArray n.dataType)).dataType =
          if n.dataType.isArray then n.dataType else .postgresArray n.dataType :=
      fun n => Node.dataType_mk _
    refine ⟨_, _, arrayAggregate_of_ok hself _, arrayAggregate_of_ok ht _, ?_, ?_⟩
    · rw [htype, htype, Node.dataType_ordered]
    · rw [htype, Node.dataType_ordered]

/-- The kind of an event with a mark behind it. -/
def markedKind : Node :=
  (Node.tableColumn "events" "kind" .text).op .concat (.literal (.text "!"))

/-- From the latest event to the first, and then by a number. -/
def eventTerms : List Argument :=
  [.element ((Node.tableColumn "events" "stamp" .timestamp).modified .desc), .value (.int 1)]

/-- What the terms are read as. -/
def eventOrdering : List Node :=
  [(Node.tableColumn "events" "stamp" .timestamp).modified .desc, .literal (.int 1)]

/-- The marked kinds in the order of the terms: the value of the target is bound before that of the
second term. -/
theorem orderedAggregate_feeds_in_order_events :
    coerce .expression (.element markedKind) = .ok markedKind ∧
      eventTerms.mapM (coerce .expression) = .ok eventOrdering ∧ eventTerms ≠ [] ∧
      (postgresql false).settings.registry = .postgresql ∧
      (∀ m ∈ markedKind :: eventOrdering,
        ((postgresql false).compile m).1 = .ok (resultOf (postgresql false) m)) ∧
      ∃ n, orderedAggregate (.element markedKind) eventTerms = .ok n ∧
        n.relations = [⟨none, "events"⟩] ∧
        ((postgresql false).compile n).1 = .ok ⟨"events.kind || $1 ORDER BY events.stamp DESC, $2",
          [.text "!", .int 1]⟩ ∧
        ∃ fed, arrayAggregate [.element n] none .postgresArray = .ok fed ∧
          fed.dataType = .postgresArray .text := by
  have ht : coerce .expression (.element markedKind) = .ok markedKind := rfl
  have hts : eventTerms.mapM (coerce .expression) = .ok eventOrdering := rfl
  have hterms : eventTerms ≠ [] := List.cons_ne_nil _ _
  have hregistry : (postgresql false).settings.registry = .postgresql := rfl
  have hresult : ∀ m ∈ markedKind :: eventOrdering,
      ((postgresql false).compile m).1 = .ok (resultOf (postgresql false) m) := by
    intro m hm
    simp only [eventOrdering, List.mem_cons, List.not_mem_nil, or_false] at hm
    rcases hm with rfl | rfl | rfl <;> rfl
  obtain ⟨-, hok⟩ := orderedAggregate_feeds_in_order (.element markedKind) eventTerms
  obtain ⟨n, hn, -, -, hrelations, -, hcompile, fed, unfed, hfed, -, -, htype⟩ :=
    hok markedKind eventOrdering ht hts hterms
  obtain ⟨texts, htexts, -, hcompiled⟩ :=
    hcompile (postgresql false).settings [] (resultOf (postgresql false)) hregistry hresult
  have hprocessed : (having (postgresql false).settings
      (resultOf (postgresql false) markedKind).params).processEach eventOrdering =
        (.ok ["events.stamp DESC", "$2"],
          having (postgresql false).settings [.text "!", .int 1]) := rfl
  obtain rfl := Except.ok.inj (Prod.mk.inj (htexts.symm.trans hprocessed)).1
  exact ⟨ht, hts, hterms, hregistry, hresult, n, hn, hrelations, hcompiled, fed, hfed, htype⟩

end SqlClause
