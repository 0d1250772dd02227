import Mathlib.Data.List.Induction
import SqlClause.Proofs.Refusals
import SqlClause.Proofs.Regrouping
import SqlClause.Proofs.Substitution

/-!
# The criterion of a statement

Criteria are added to a statement one at a time, and joined to what is there by `AND`: the first one
stands alone until the second comes, and only then gets the parentheses that it needs beside `AND`.
What has been joined needs none when the next one comes. So the text is flat: the criteria in the
order in which they were added, each of them in parentheses or not by what it is itself, with `AND`
between them.

* `Operation.criterion_run`, `Operation.criterion_outcomes`: what operations do to a criterion;
* `Node.render_conjunction`: joined criteria are rendered one after the other;
* `Compiler.compile_selfGroup`: the text of an operand;
* **`Compiler.compile_criterion`**: the criterion of a statement that was built in any way.
-/

namespace SqlClause

/-! ## 1. Adding criteria -/

/-- The criterion, joined to the one that is there. -/
def Select.joinCriterion (criterion : Option Node) (n : Node) : Node :=
  match criterion with
  | none => n
  | some c => c.op .and n

namespace Operation

/-- The criterion that the operation adds. -/
def criterion? : Operation → Option Node
  | step (.build (.addCriterion n)) => some n
  | _ => none

/-- The operation goes on with the statement at hand. An extension of whatever kind leaves the
criterion alone. -/
def Continues : Operation → Prop
  | step (.ofColumns _) => False
  | extendBy change => ∀ s t, change.run s = (.ok (), t) → t.criterion = s.criterion
  | _ => True

/-- What is made anew with the same criterion has it afterwards, and so has what fails. -/
theorem criterion_onCopy {f : Statement → Except Error Statement} {s : Statement}
    (h : ∀ t, f s = .ok t → t.criterion = s.criterion) :
    ((onCopy f).run s).2.criterion = s.criterion := by
  cases hf : f s with
  | ok t =>
      rw [run_onCopy_of_ok hf]
      exact h t hf
  | error e => rw [run_onCopy_of_error hf]

theorem criterion_of_extend {s t : Statement} {e : Extension} (h : s.extend e = .ok t) :
    t.criterion = s.criterion := by
  cases e with
  | hint n =>
      obtain rfl := Except.ok.inj h
      rfl
  | distinctOn terms =>
      rw [Select.extend_distinctOn] at h
      split at h
      · obtain rfl := Except.ok.inj h
        rfl
      · cases h

theorem criterion_of_take {st : Step} {s t : Statement} (hnew : ∀ columns, st ≠ .ofColumns columns)
    (hcriterion : ∀ n, st ≠ .build (.addCriterion n)) (h : st.take s = .ok t) :
    t.criterion = s.criterion := by
  cases st with
  | ofColumns columns => exact absurd rfl (hnew columns)
  | build b =>
      cases b with
      | addCriterion n => exact absurd rfl (hcriterion n)
      | addGroupBy terms | addOrderBy terms =>
          simp only [Step.take, Builder.apply, Select.addGroupBy_eq, Select.addOrderBy_eq] at h
          obtain ⟨ns, -, rfl⟩ := exists_of_map_eq_ok h
          rfl
      | _ =>
          obtain rfl := Except.ok.inj h
          rfl
  | markDistinct =>
      obtain rfl := Except.ok.inj h
      rfl
  | addDistinctOn terms =>
      obtain ⟨ns, -, rfl⟩ := Select.exists_of_addDistinctOn h
      rfl
  | extend e => exact criterion_of_extend h

/-- **An operation adds its criterion**, if it has one, and leaves what is there otherwise. -/
theorem criterion_run {op : Operation} (h : op.Continues) (s : Statement) :
    (op.run.run s).2.criterion =
      op.criterion?.elim s.criterion (some ∘ Select.joinCriterion s.criterion) := by
  cases op with
  | step st =>
      by_cases hcriterion : ∃ n, st = .build (.addCriterion n)
      · obtain ⟨n, rfl⟩ := hcriterion
        rfl
      · have hnone : (step st).criterion? = none := by
          unfold criterion?
          split
          · rename_i n heq
            exact absurd ⟨n, step.inj heq⟩ hcriterion
          · rfl
        rw [hnone]
        refine criterion_onCopy fun t ht => criterion_of_take ?_ ?_ ht
        · rintro columns rfl
          exact h
        · exact fun n hn => hcriterion ⟨n, hn⟩
  | extendBy change =>
      refine criterion_onCopy fun t ht => ?_
      unfold Select.extendBy at ht
      split at ht
      · rename_i u hrun
        obtain rfl := Except.ok.inj ht
        exact h s u hrun
      · cases ht
  | apply e =>
      cases e with
      | hint n => rfl
      | distinctOn terms =>
          have hrun := Extension.apply_distinctOn_run s terms
          show ((Extension.distinctOn terms).apply.run s).2.criterion = s.criterion
          rw [hrun]
          split <;> rfl
  | claim =>
      show (Select.claimDistinctOn.run s).2.criterion = s.criterion
      rw [Select.claimDistinctOn_run]
      rfl
  | merge point f => cases point <;> rfl

/-- The criteria that operations add, in order. -/
def criteria (ops : List Operation) : List Node := ops.filterMap criterion?

/-- **Operations join their criteria** to what is there, one after the other. -/
theorem criterion_outcomes : ∀ (ops : List Operation) (s : Statement),
    (∀ op ∈ ops, op.Continues) →
      (outcomes ops s).2.criterion =
        (criteria ops).foldl (fun c n => some (Select.joinCriterion c n)) s.criterion
  | [], _, _ => rfl
  | op :: ops, s, h => by
      have hlater := criterion_outcomes ops (op.run.run s).2 fun o ho =>
        h o (List.mem_cons_of_mem op ho)
      have hrun : (outcomes (op :: ops) s).2 = (outcomes ops (op.run.run s).2).2 := by
        rw [outcomes, List.mapM_cons]
        rfl
      rw [hrun, hlater, criterion_run (h op List.mem_cons_self) s, criteria, criteria]
      cases hcriterion : op.criterion? with
      | none => rw [List.filterMap_cons_none hcriterion]; rfl
      | some n => rw [List.filterMap_cons_some hcriterion]; rfl

end Operation

/-! ## 2. Joined criteria -/

namespace Node

/-- Nodes joined to a first one by `AND`. -/
def conjunction (first : Node) (rest : List Node) : Node := rest.foldl (·.op .and ·) first

theorem foldl_joinCriterion : ∀ (rest : List Node) (first : Node),
    rest.foldl (fun c n => some (Select.joinCriterion c n)) (some first) =
      some (first.conjunction rest)
  | [], _ => rfl
  | n :: rest, first => foldl_joinCriterion rest (first.op .and n)

/-- The node as an operand of `AND`. -/
def underAnd (n : Node) : Node := n.selfGroup (some .and)

/-- What has been joined by `AND` is no operand that needs parentheses. -/
theorem underAnd_op (l r : Node) : (l.op .and r).underAnd = l.op .and r :=
  selfGroup_op (Nat.le_refl _) l r

theorem conjunction_concat (first : Node) (rest : List Node) (n : Node) :
    first.conjunction (rest ++ [n]) = (first.conjunction rest).op .and n :=
  List.foldl_concat ..

theorem underAnd_conjunction (first : Node) {rest : List Node} (h : rest ≠ []) :
    (first.conjunction rest).underAnd = first.conjunction rest := by
  rw [← List.dropLast_append_getLast h, conjunction_concat, underAnd_op]

end Node

/-- One more text behind others. -/
theorem RenderM.joined_concat (separator : String) (x : RenderM String) :
    ∀ {xs : List (RenderM String)}, xs ≠ [] → joined separator (xs ++ [x]) = do
      return (← joined separator xs) ++ separator ++ (← x)
  | [y], _ => by
      rw [List.singleton_append, Layout.joined_cons_cons]
      simp [joined]
  | y :: z :: rest, _ => by
      have hrest := joined_concat separator x (List.cons_ne_nil z rest)
      rw [List.cons_append, List.cons_append, Layout.joined_cons_cons, ← List.cons_append, hrest,
        Layout.joined_cons_cons]
      simp only [bind_assoc, pure_bind, String.append_assoc]

namespace Node

variable {s : Settings} (h : s.registry.element? "binary" = some .binary)

include h

/-- As an operand, the conjunction is rendered as the operands of which it is made. -/
theorem render_underAnd_conjunction (first : Node) (rest : List Node) :
    (first.conjunction rest).underAnd.render s =
      renderAll " AND " ((first :: rest).map underAnd) s := by
  -- from the last criterion: all those before it are its left operand, joined already
  induction rest using List.reverseRecOn with
  | nil =>
      have hone : renderAll " AND " [first.underAnd] = first.underAnd.render := by
        simp [renderAll, RenderM.joined]
      rw [List.map_singleton, hone]
      rfl
  | append_singleton rest n ih =>
      have hoperands : ((first :: rest).map underAnd).map render ≠ [] := by simp
      rw [conjunction_concat, underAnd_op]
      have hbinary : ((first.conjunction rest).op .and n).render s = do
          return (← (first.conjunction rest).underAnd.render s) ++ " AND "
            ++ (← n.underAnd.render s) := render_binary h ..
      rw [hbinary, ih, ← List.cons_append, List.map_append, renderAll, renderAll, List.map_append,
        List.map_singleton, List.map_singleton, RenderM.joined_concat _ _ hoperands]
      rfl

/-- **Joined criteria are rendered one after the other**, each as an operand of `AND`. -/
theorem render_conjunction (first : Node) {rest : List Node} (hrest : rest ≠ []) :
    (first.conjunction rest).render s = renderAll " AND " ((first :: rest).map underAnd) s := by
  rw [← render_underAnd_conjunction h, underAnd_conjunction first hrest]

end Node

/-! ## 3. Texts between separators -/

namespace Template

/-- Templates with a text between them. -/
def separated (separator : String) (ts : List Template) : Template :=
  [Piece.text separator].intercalate ts

theorem separated_cons_cons (separator : String) (t u : Template) (rest : List Template) :
    separated separator (t :: u :: rest) =
      t ++ (.text separator :: separated separator (u :: rest)) := by
  rw [separated, List.intercalate_cons_cons, List.append_assoc]
  rfl

theorem values_separated (separator : String) : ∀ ts : List Template,
    values (separated separator ts) = ts.flatMap values
  | [] => rfl
  | [t] => by rw [separated, List.intercalate_singleton, List.flatMap_singleton]
  | t :: u :: rest => by
      rw [separated_cons_cons, values_append, values_text, values_separated separator (u :: rest)]
      rfl

/-- Where the count does not matter, the fillings are joined. -/
theorem fill_separated (g : Value → String) (separator : String) : ∀ ts : List Template,
    (separated separator ts).fill (fun _ => g) 0 =
      separator.intercalate (ts.map (fill (fun _ => g) 0))
  | [] => rfl
  | [t] => by
      rw [separated, List.intercalate_singleton, List.map_singleton, String.intercalate_singleton]
  | t :: u :: rest => by
      have hrest := fill_separated g separator (u :: rest)
      rw [separated_cons_cons, fill_append, fill,
        fill_const g (separated separator (u :: rest)) _ 0, hrest]
      simp only [List.map_cons, String.intercalate_cons_cons, String.append_assoc]

end Template

theorem Layout.template_separated (separator : String) : ∀ ts : List Template,
    (separated separator (ts.map Except.ok)).template = .ok (Template.separated separator ts)
  | [] => rfl
  | [t] => by
      rw [Template.separated, List.intercalate_singleton]
      exact congrArg Except.ok (List.append_nil t)
  | t :: u :: rest => by
      have hrest := template_separated separator (u :: rest)
      have hfirst : (part (Except.ok t) ++ fixed separator).template =
          .ok (t ++ [.text separator]) := rfl
      rw [List.map_cons] at hrest
      rw [List.map_cons, List.map_cons, separated, template_append, hfirst, hrest,
        Template.separated_cons_cons]
      exact congrArg Except.ok (List.append_assoc ..)

/-- Nodes that are rendered one after the other fill their templates one after the other. -/
theorem Realizes.renderAll {s : Settings} {inDdl : Bool} {ns : List Node} {ts : List Template}
    (h : ns.map (Node.template (s.style inDdl)) = ts.map Except.ok) (separator : String) :
    Realizes s inDdl (Node.renderAll separator ns) (.ok (Template.separated separator ts)) := by
  have hrun : Realizes s inDdl ((Layout.separated separator ns).map Node.render).run
      ((Layout.separated separator ns).map (Node.template (s.style inDdl))).template :=
    Realizes.run_layout fun n _ => n.realizes_template s inDdl
  rw [Layout.map_separated, Layout.map_separated, h, Layout.template_separated,
    ← Layout.joined_eq_run] at hrun
  exact hrun

/-! ## 4. Compiling -/

namespace Compiler

open Expression (bracket)
open Operation

theorem compile_of_realizes {s : Settings} {n : Node} {t : Template}
    (h : Realizes s false n.render (.ok t)) (collected : List Value) :
    ((having s collected).compile n).1 =
      .ok ⟨t.fill (s.filling s.literalBinds) 0, if s.literalBinds then [] else t.values⟩ := by
  have hrender := h ⟨[], false⟩ rfl
  rw [Bool.or_false] at hrender
  rw [compile, having, hrender]
  cases s.literalBinds <;> rfl

/-- **An operand compiles like the node**, with parentheses around its text if it needs them. -/
theorem compile_selfGroup {c : Compiler}
    (h : c.settings.registry.element? "grouping" = some .grouping) (n : Node) (o : Operator) :
    (c.compile (n.selfGroup (some o))).1 = (c.compile n).1.map fun r =>
      ⟨bracket (n.needsGrouping (some o)) r.sql, r.params⟩ := by
  rw [Node.selfGroup]
  cases n.needsGrouping (some o) with
  | false =>
      show (c.compile n).1 = _
      cases (c.compile n).1 <;> rfl
  | true =>
      have hgrouping : n.grouping.render c.settings = (do return "(" ++ (← n.render) ++ ")" :
          RenderM String) c.settings := Node.render_of_rule (c := .grouping n) h
      show (c.compile n.grouping).1 = _
      rw [compile, compile, hgrouping, RenderM.bind_apply]
      rcases n.render c.settings { c.progress with params := [] } with ⟨e | text, q⟩ <;> rfl

/-- What compiles has templates. -/
theorem exists_templates {s : Settings} {collected : List Value} : ∀ {ns : List Node}
    {rs : List Compiled}, (ns.map fun n => ((having s collected).compile n).1) = rs.map Except.ok →
      ∃ ts : List Template, ns.map (Node.template (s.style false)) = ts.map Except.ok ∧
        rs = ts.map fun t =>
          ⟨t.fill (s.filling s.literalBinds) 0, if s.literalBinds then [] else t.values⟩
  | [], [], _ => ⟨[], rfl, rfl⟩
  | n :: ns, r :: rs, h => by
      obtain ⟨hn, hns⟩ := List.cons.inj h
      obtain ⟨t, ht, rfl⟩ := template_of_compile s collected n hn
      obtain ⟨ts, hts, rfl⟩ := exists_templates hns
      refine ⟨t :: ts, ?_, rfl⟩
      rw [List.map_cons, List.map_cons, ht, hts]

/-- **What is rendered like nodes one after the other** compiles to their values, one after the
other, and where values are written into the text, to their texts with the separator between
them. -/
theorem compile_of_renderAll {s : Settings} {collected : List Value} {separator : String} {n : Node}
    {ns : List Node} {rs : List Compiled} (hrender : n.render s = Node.renderAll separator ns s)
    (h : (ns.map fun m => ((having s collected).compile m).1) = rs.map Except.ok) :
    ∃ r, ((having s collected).compile n).1 = .ok r ∧ r.params = rs.flatMap (·.params) ∧
      (s.literalBinds = true → r.sql = separator.intercalate (rs.map (·.sql))) := by
  obtain ⟨ts, hts, rfl⟩ := exists_templates h
  have hrealizes : Realizes s false n.render (.ok (Template.separated separator ts)) :=
    (Realizes.renderAll hts separator).congr fun p _ => congrFun hrender p
  refine ⟨_, compile_of_realizes hrealizes collected, ?_, fun hliteral => ?_⟩
  · rw [List.flatMap_map]
    cases s.literalBinds with
    | true => exact (List.flatMap_eq_nil_iff.mpr fun _ _ => rfl).symm
    | false => exact Template.values_separated separator ts
  · rw [List.map_map, hliteral]
    exact Template.fill_separated Value.inline separator ts

/-- **The criterion of a statement that was built in any way**, if two criteria were added to it or
more. It is processed like the criteria, as operands of `AND`, one after the other with `AND`
between them. If all of them compile, it compiles: to their values, one after the other, and where
values are written into the text, to their texts with `AND` between them, each of them in
parentheses if the criterion needs them beside `AND`, wherever it stands. -/
theorem compile_criterion {s : Settings} (hs : s.registry.RendersFormulas) {st : Statement}
    (hst : st.criterion = none) {ops : List Operation} (hops : ∀ op ∈ ops, op.Continues)
    (hmany : 2 ≤ (criteria ops).length) :
    ∃ n, (outcomes ops st).2.criterion = some n ∧
      (∀ p : Progress, (Compiler.mk s p).process n =
        (Compiler.mk s p).processAll " AND " ((criteria ops).map (·.selfGroup (some .and)))) ∧
      ∀ (collected : List Value) (result : Node → Compiled),
        (∀ m ∈ criteria ops, ((having s collected).compile m).1 = .ok (result m)) →
          (∀ m ∈ criteria ops, ((having s collected).compile (m.selfGroup (some .and))).1 =
            .ok ⟨bracket (m.needsGrouping (some .and)) (result m).sql, (result m).params⟩) ∧
          ∃ r, ((having s collected).compile n).1 = .ok r ∧
            r.params = (criteria ops).flatMap (fun m => (result m).params) ∧
            (s.literalBinds = true → r.sql = " AND ".intercalate ((criteria ops).map fun m =>
              bracket (m.needsGrouping (some .and)) (result m).sql)) := by
  obtain ⟨-, hbinary, -, hgrouping⟩ := hs
  obtain ⟨first, rest, hcriteria⟩ : ∃ first rest, criteria ops = first :: rest :=
    List.exists_cons_of_length_pos (by omega)
  have hrest : rest ≠ [] := by
    rintro rfl
    have hone : (criteria ops).length = 1 := congrArg List.length hcriteria
    omega
  have hjoined : (outcomes ops st).2.criterion = some (first.conjunction rest) := by
    rw [criterion_outcomes ops st hops, hst, hcriteria, List.foldl_cons]
    exact Node.foldl_joinCriterion rest first
  have hrender : (first.conjunction rest).render s =
      Node.renderAll " AND " ((criteria ops).map (·.selfGroup (some .and))) s := by
    rw [hcriteria]
    exact Node.render_conjunction hbinary first hrest
  refine ⟨_, hjoined, fun p => ?_, fun collected result hresult => ?_⟩
  · rw [process, processAll, run, run, hrender]
  · have hoperand : ∀ m ∈ criteria ops,
        ((having s collected).compile (m.selfGroup (some .and))).1 =
          .ok ⟨bracket (m.needsGrouping (some .and)) (result m).sql, (result m).params⟩ := by
      intro m hm
      rw [compile_selfGroup hgrouping, hresult m hm]
      rfl
    have hall : (((criteria ops).map (·.selfGroup (some .and))).map fun m =>
        ((having s collected).compile m).1) = ((criteria ops).map fun m => Compiled.mk
          (bracket (m.needsGrouping (some .and)) (result m).sql) (result m).params).map .ok := by
      rw [List.map_map, List.map_map]
      exact List.map_congr_left hoperand
    obtain ⟨r, hr, hparams, hsql⟩ := compile_of_renderAll hrender hall
    refine ⟨hoperand, r, hr, ?_, fun hliteral => ?_⟩
    · rw [hparams, List.flatMap_map]
    · rw [hsql hliteral, List.map_map]
      rfl

/-- Guests who are late or early, and in a certain room, and for whom a condition holds. Between the
criteria a limit is set, an ordering is refused, and a hint is given. -/
def guestSteps : List Operation :=
  [step (.build (.addCriterion ((Node.column "late").op .or (Node.column "early")))),
   step (.build (.setLimit 3)),
   step (.build (.addCriterion ((Node.column "room").op .eq (Node.literal (.int 7))))),
   step (.build (.addOrderBy [.value (.int 1)])),
   apply (.hint (Node.text "FOR UPDATE")),
   step (.build (.addCriterion (Node.text "a = 1 OR b = 2")))]

/-- What a compiler makes of a node. -/
def resultOf (c : Compiler) (n : Node) : Compiled :=
  match (c.compile n).1 with
  | .ok r => r
  | .error _ => ⟨"", []⟩

/-- The first criterion and the last one are in parentheses, and the one in between binds its
value. -/
theorem compile_criterion_guests :
    let st := Select.ofColumns [Node.column "name"]
    Registry.postgresql.RendersFormulas ∧ st.criterion = none ∧
      (∀ op ∈ guestSteps, op.Continues) ∧ 2 ≤ (criteria guestSteps).length ∧
      ∃ n, (outcomes guestSteps st).2.criterion = some n ∧
        ((postgresql true).compile n).1 =
          .ok ⟨"(late OR early) AND room = 7 AND (a = 1 OR b = 2)", []⟩ ∧
        ∃ sql, ((postgresql false).compile n).1 = .ok ⟨sql, [.int 7]⟩ := by
  intro st
  have hs := Registry.rendersFormulas_postgresql
  have hst : st.criterion = none := rfl
  have hops : ∀ op ∈ guestSteps, op.Continues := by
    intro op hop
    simp only [guestSteps, List.mem_cons, List.not_mem_nil, or_false] at hop
    rcases hop with rfl | rfl | rfl | rfl | rfl | rfl <;> trivial
  have hmany : 2 ≤ (criteria guestSteps).length := by decide
  have hresult : ∀ literalBinds, ∀ m ∈ criteria guestSteps,
      ((postgresql literalBinds).compile m).1 = .ok (resultOf (postgresql literalBinds) m) := by
    intro literalBinds m hm
    have hcriteria : criteria guestSteps = [(Node.column "late").op .or (Node.column "early"),
      (Node.column "room").op .eq (Node.literal (.int 7)), Node.text "a = 1 OR b = 2"] := rfl
    simp only [hcriteria, List.mem_cons, List.not_mem_nil, or_false] at hm
    cases literalBinds <;> rcases hm with rfl | rfl | rfl <;> rfl
  obtain ⟨n, hn, -, hinline⟩ :=
    compile_criterion (s := ⟨.postgresql, .postgresql, true⟩) hs hst hops hmany
  obtain ⟨n', hn', -, hbind⟩ :=
    compile_criterion (s := ⟨.postgresql, .postgresql, false⟩) hs hst hops hmany
  obtain rfl := Option.some.inj (hn.symm.trans hn')
  obtain ⟨-, ⟨sql, _⟩, hr, rfl, hsql⟩ := hinline [] _ (hresult true)
  obtain ⟨-, ⟨sql', _⟩, hr', rfl, -⟩ := hbind [] _ (hresult false)
  obtain rfl := hsql rfl
  exact ⟨hs, hst, hops, hmany, n, hn, hr, sql', hr'⟩

end Compiler

end SqlClause
