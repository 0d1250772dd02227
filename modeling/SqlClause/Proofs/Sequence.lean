import Mathlib.Tactic.Choose
import SqlClause.Proofs.Template

/-!
# Nodes processed one after the other

A compiler that processes nodes one after the other goes on with what each of them has left, so that
the placeholders of a node follow those of the nodes before it. What a rule writes around the texts
of its parts and between them is written around and between these texts. If every node compiles on
its own, they can be processed in a row: the values come to be bound one after the other, and where
values are written into the text, the texts are those of the nodes on their own.

* `Compiler.processEach_cons`: the first node, and then the others;
* `Compiler.run_renderAll`, `Compiler.process_enclosed`: texts with a separator between them and
  something around them;
* `Compiler.process_of_compile`: what a node that compiles does behind others;
* **`Compiler.processEach_of_compile`**: nodes that compile, in a row.
-/

namespace SqlClause

namespace Compiler

/-- The texts of the nodes, processed one after the other up to the first that fails. -/
def processEach (c : Compiler) (ns : List Node) : Except Error (List String) × Compiler :=
  c.run (ns.mapM Node.render)

/-! ## 1. One after the other -/

/-- The compiler as a rendering leaves it, and what is made of the text. -/
theorem run_map {α β : Type} (c : Compiler) (act : RenderM α) (f : α → β) :
    c.run (do return f (← act)) = ((c.run act).1.map f, (c.run act).2) := by
  unfold run
  rw [RenderM.bind_apply]
  rcases act c.settings c.progress with ⟨e | a, p⟩ <;> rfl

/-- A rendering after another is done by the compiler as the other has left it. -/
theorem run_bind_of_ok {α β : Type} {c c' : Compiler} {act : RenderM α} {a : α}
    (h : c.run act = (.ok a, c')) (f : α → RenderM β) : c.run (act >>= f) = c'.run (f a) := by
  unfold run at h ⊢
  rw [RenderM.bind_apply]
  rcases hact : act c.settings c.progress with ⟨e | b, p⟩
  · rw [hact] at h
    cases h
  · rw [hact] at h
    cases h
    rfl

theorem processEach_nil (c : Compiler) : c.processEach [] = (.ok [], c) := rfl

/-- The first node is processed, and then the others. -/
theorem processEach_cons {c c' : Compiler} {n : Node} {text : String}
    (h : c.process n = (.ok text, c')) (ns : List Node) :
    c.processEach (n :: ns) =
      ((c'.processEach ns).1.map (text :: ·), (c'.processEach ns).2) := by
  rw [processEach, List.mapM_cons, run_bind_of_ok h]
  exact run_map c' (ns.mapM Node.render) (text :: ·)

/-- The texts of the nodes with a separator between them, and what is made of that. -/
theorem run_renderAll {β : Type} (c : Compiler) (separator : String) (ns : List Node)
    (f : String → β) : c.run (do return f (← Node.renderAll separator ns)) =
      ((c.processEach ns).1.map fun texts => f (separator.intercalate texts),
        (c.processEach ns).2) := by
  have hall : (do return f (← Node.renderAll separator ns) : RenderM β) = do
      return f (separator.intercalate (← ns.mapM Node.render)) := by
    rw [Node.renderAll, RenderM.joined, List.mapM_map, bind_assoc]
    simp only [pure_bind]
    rfl
  rw [hall]
  exact run_map c (ns.mapM Node.render) fun texts => f (separator.intercalate texts)

/-- **Texts in a row are processed one after the other**, with what is written between them and
around them. -/
theorem process_enclosed {c : Compiler} {n : Node} {ns : List Node}
    {before separator after : String} (h : n.render c.settings =
      (do return before ++ (← Node.renderAll separator ns) ++ after : RenderM String) c.settings) :
    c.process n = ((c.processEach ns).1.map fun texts =>
      before ++ separator.intercalate texts ++ after, (c.processEach ns).2) := by
  rw [process, run, h]
  exact run_renderAll c separator ns fun text => before ++ text ++ after

/-! ## 2. Nodes that compile -/

variable {s : Settings} {collected : List Value}

/-- A node that compiles on its own is processed behind others, and its values are bound behind
theirs. Its text is the same with nothing before it, or if no values are bound. -/
theorem process_of_compile {n : Node} {r : Compiled}
    (h : ((having s collected).compile n).1 = .ok r) (before : List Value) :
    ∃ text, (having s before).process n = (.ok text, having s (before ++ r.params)) ∧
      (before = [] ∨ s.literalBinds = true → text = r.sql) := by
  obtain ⟨t, ht, rfl⟩ := template_of_compile s collected n h
  refine ⟨t.fill (s.filling s.literalBinds) before.length, ?_, ?_⟩
  · rw [process_of_template s before n ht]
    cases s.literalBinds
    · rfl
    · exact congrArg _ (congrArg (having s) (List.append_nil before).symm)
  · rintro (rfl | hliteral)
    · rfl
    · have hinline : s.filling s.literalBinds = fun _ => Value.inline := by
        rw [hliteral]
        rfl
      rw [hinline, Template.fill_const]

/-- **Nodes that compile on their own can be processed in a row.** Their values are bound one after
the other, and if values are written into the text, the texts are those that the nodes compile
to. -/
theorem processEach_of_compile {result : Node → Compiled} : ∀ {ns : List Node},
    (∀ n ∈ ns, ((having s collected).compile n).1 = .ok (result n)) → ∀ before : List Value,
      ∃ texts, (having s before).processEach ns =
          (.ok texts, having s (before ++ ns.flatMap fun n => (result n).params)) ∧
        (s.literalBinds = true → texts = ns.map fun n => (result n).sql)
  | [], _, before => ⟨[], by rw [processEach_nil, List.flatMap_nil, List.append_nil], fun _ => rfl⟩
  | n :: ns, h, before => by
      obtain ⟨text, hn, htext⟩ := process_of_compile (h n List.mem_cons_self) before
      obtain ⟨texts, hns, htexts⟩ :=
        processEach_of_compile (fun m hm => h m (List.mem_cons_of_mem n hm))
          (before ++ (result n).params)
      refine ⟨text :: texts, ?_, fun hliteral => ?_⟩
      · rw [processEach_cons hn, hns, List.flatMap_cons, List.append_assoc]
        rfl
      · rw [htext (.inr hliteral), htexts hliteral, List.map_cons]

/-- Nodes that all compile can be processed in a row. -/
theorem exists_processEach {ns : List Node}
    (h : ∀ n ∈ ns, ∃ r, ((having s collected).compile n).1 = .ok r) (before : List Value) :
    ∃ texts params, (having s before).processEach ns = (.ok texts, having s params) := by
  have hresult : ∀ n, ∃ r, n ∈ ns → ((having s collected).compile n).1 = .ok r := by
    intro n
    by_cases hn : n ∈ ns
    · obtain ⟨r, hr⟩ := h n hn
      exact ⟨r, fun _ => hr⟩
    · exact ⟨⟨"", []⟩, fun hmem => absurd hmem hn⟩
  choose result hresult using hresult
  obtain ⟨texts, hall, -⟩ := processEach_of_compile hresult before
  exact ⟨texts, _, hall⟩

/-- A value is bound behind others, or written into the text. -/
theorem bind_having (before : List Value) (v : Value) : (having s before).bind v =
    (.ok (s.filling s.literalBinds before.length v),
      having s (before ++ if s.literalBinds then [] else [v])) := by
  unfold bind run having
  simp only [RenderM.bindValue_apply, Bool.or_false]
  cases s.literalBinds
  · rfl
  · simp only [if_true, List.append_nil]
    rfl

/-- To compile is to process with nothing bound, and to hand out what has been bound. -/
theorem compile_of_process {n : Node} {sql : String} {params : List Value}
    (h : (having s []).process n = (.ok sql, having s params)) :
    ((having s collected).compile n).1 = .ok ⟨sql, params⟩ := by
  rw [compile_eq_process, h]
  rfl

end Compiler

end SqlClause
