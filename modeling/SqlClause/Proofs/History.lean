import SqlClause.Proofs.Definitions

/-!
# The history of a compiler

A compiler is used for one thing after the other, and each of them may fail at any depth. All that
it remembers are the values that it has bound: what it compiles and defines is what a new compiler
compiles and defines, and what it processes is the same but for the numbers of the placeholders.

* `Node.inDdl_render`: a rendering leaves the mode as it was, whether it fails or not;
* `Node.exists_fails`: how far a rendering comes before it fails does not depend on the history;
* `Compiler.exists_after_having`: what a call leaves behind;
* **`Compiler.calls_leave_no_trace`**: after any calls a compiler is as good as new.
-/

namespace SqlClause

/-! ## 1. Renderings that fail -/

/-- **A rendering leaves the mode as it was**, whether it fails or not. -/
theorem Node.inDdl_render (n : Node) (s : Settings) (p : Progress) :
    (n.render s p).2.inDdl = p.inDdl := by
  have hrender := n.realizes_template s p.inDdl
  cases htemplate : n.template (s.style p.inDdl) with
  | error e =>
      rw [htemplate] at hrender
      obtain ⟨vs, hfails⟩ := hrender p rfl
      rw [hfails, Progress.inDdl_record]
  | ok t =>
      rw [htemplate] at hrender
      rw [hrender p rfl, Progress.inDdl_record]

/-- The rendering fails with the error after it has bound the values, whatever was bound before. -/
def Fails (s : Settings) (inDdl : Bool) (x : RenderM String) (e : Error) (vs : List Value) : Prop :=
  ∀ p : Progress, p.inDdl = inDdl → x s p = (.error e, p.record (s.literalBinds || inDdl) vs)

namespace Fails

variable {s : Settings} {inDdl : Bool} {x y : RenderM String} {e : Error} {vs : List Value}

/-- After a failure nothing more is bound. -/
theorem append_left (h : Fails s inDdl x e vs) :
    Fails s inDdl (do return (← x) ++ (← y)) e vs := by
  intro p hp
  rw [RenderM.bind_apply, h p hp]

/-- What succeeds before a failure has bound its values. -/
theorem append_right {t : Template} (hx : Realizes s inDdl x (.ok t)) (h : Fails s inDdl y e vs) :
    Fails s inDdl (do return (← x) ++ (← y)) e (t.values ++ vs) := by
  intro p hp
  have hlater : (p.record (s.literalBinds || inDdl) t.values).inDdl = inDdl :=
    (Progress.inDdl_record ..).trans hp
  rw [RenderM.bind_apply, hx p hp, Progress.record_append, ← h _ hlater]
  simp only [RenderM.bind_apply, h _ hlater]

/-- A template that is missing behind something is missing for the same reason. -/
theorem eq_error_of_preceded (pre : Template) {rest : Except Error Template}
    (h : (do return pre ++ (← rest)) = .error e) : rest = .error e := by
  cases rest with
  | error e' => exact h
  | ok t => cases h

/-- A layout fails where the first of its parts fails. -/
theorem exists_run {σ : Style} (hσ : σ = s.style inDdl) : ∀ {l : Layout Node},
    (∀ n ∈ l.parts, ∀ e, n.template σ = .error e → ∃ vs, Fails s inDdl n.render e vs) →
    ∀ {e}, (l.map (Node.template σ)).template = .error e →
      ∃ vs, Fails s inDdl (l.map Node.render).run e vs
  | [], _, _, h => nomatch h
  | .piece p :: rest, hparts, e, h => by
      have hrest : (Layout.map (Node.template σ) rest).template = .error e :=
        eq_error_of_preceded [p] h
      have hsame : Layout.parts (.piece p :: rest) = Layout.parts rest := by cases p <;> rfl
      rw [hsame] at hparts
      obtain ⟨vs, hfails⟩ := exists_run hσ (l := rest) hparts hrest
      cases p with
      | text text => exact ⟨_, hfails.append_right (Realizes.pure text)⟩
      | value v => exact ⟨_, hfails.append_right (Realizes.bindValue v)⟩
  | .part n :: rest, hparts, e, h => by
      have hparts_rest : ∀ m ∈ Layout.parts rest, ∀ e, m.template σ = .error e →
          ∃ vs, Fails s inDdl m.render e vs :=
        fun m hm => hparts m (List.mem_cons_of_mem _ hm)
      have hboth :
          (do return (← n.template σ) ++ (← (Layout.map (Node.template σ) rest).template)) =
            .error e := h
      cases hn : n.template σ with
      | error e' =>
          obtain ⟨vs, hfails⟩ := hparts n List.mem_cons_self e' hn
          rw [hn] at hboth
          obtain rfl : e' = e := Except.error.inj hboth
          exact ⟨vs, hfails.append_left⟩
      | ok t =>
          rw [hn] at hboth
          obtain ⟨vs, hfails⟩ :=
            exists_run hσ (l := rest) hparts_rest (eq_error_of_preceded t hboth)
          have hrender := n.realizes_template s inDdl
          rw [← hσ, hn] at hrender
          exact ⟨_, hfails.append_right hrender⟩

end Fails

/-- **How far a rendering comes before it fails does not depend on the history.** -/
theorem Node.exists_fails (s : Settings) (inDdl : Bool) : ∀ (n : Node) (e : Error),
    n.template (s.style inDdl) = .error e → ∃ vs, Fails s inDdl n.render e vs := by
  apply induction (P := fun n => ∀ e, n.template (s.style inDdl) = .error e →
    ∃ vs, Fails s inDdl n.render e vs)
  intro c ih e h
  rw [template_mk] at h
  cases hlayout : (s.style inDdl).layoutFor (mk c).sources c with
  | error e' =>
      rw [hlayout] at h
      obtain rfl : e' = e := Except.error.inj h
      refine ⟨[], fun p hp => ?_⟩
      rw [render_apply, hp, hlayout, Progress.record_nil]
  | ok layout =>
      rw [hlayout] at h
      obtain ⟨vs, hfails⟩ := Fails.exists_run rfl
        (fun n hn => ih n (Style.mem_parts_of_layoutFor hlayout hn)) h
      refine ⟨vs, fun p hp => ?_⟩
      rw [render_apply, hp, hlayout]
      exact hfails p hp

/-! ## 2. Calls -/

/-- What stands for values behind `k` others. -/
def Settings.fillings (s : Settings) (k : Nat) (vs : List Value) : List String :=
  vs.mapIdx fun i v => s.filling s.literalBinds (k + i) v

namespace Compiler

/-- A call of a compiler. -/
inductive Call where
  | compile (n : Node)
  | process (n : Node)
  | constraint (k : Constraint)
  | createTable (t : Table)

/-- The compiler after a call, whether the call fails or not. -/
def after (c : Compiler) : Call → Compiler
  | .compile n => (c.compile n).2
  | .process n => (c.process n).2
  | .constraint k => (c.constraint k).2
  | .createTable t => (c.createTable t).2

/-- The compiler with more values recorded, unless it writes values into the text. -/
def record (c : Compiler) (vs : List Value) : Compiler :=
  { c with progress := c.progress.record c.settings.literalBinds vs }

/-- A rendering without a trace has one outcome, and leaves every compiler as it is. -/
theorem run_of_traceless {α : Type} {s : Settings} {x : RenderM α}
    (h : RenderM.Traceless RenderM.Anywhere s x) (collected : List Value) :
    (having s collected).run x = (((new s).run x).1, having s collected) := by
  obtain ⟨outcome, h⟩ := h
  obtain ⟨hhaving, -⟩ := h ⟨collected, false⟩ trivial
  obtain ⟨hnew, -⟩ := h .start trivial
  unfold run having new
  rw [hhaving, hnew]

variable (s : Settings) (collected : List Value)

/-- A text that has been processed, and what it leaves behind, for values collected before and for
none. -/
theorem process_cases (n : Node) :
    (∃ e vs, ∀ collected,
      (having s collected).process n = (.error e, (having s collected).record vs)) ∨
    ∃ t : Template, ∀ collected,
      (having s collected).process n =
        (.ok (Template.weave t.segments (s.fillings collected.length t.values)),
          (having s collected).record t.values) := by
  cases htemplate : n.template (s.style false) with
  | error e =>
      obtain ⟨vs, hfails⟩ := n.exists_fails s false e htemplate
      refine .inl ⟨e, vs, fun collected => ?_⟩
      rw [process, run, having, hfails ⟨collected, false⟩ rfl, Bool.or_false]
      rfl
  | ok t =>
      refine .inr ⟨t, fun collected => ?_⟩
      have hrender := n.realizes_template s false
      rw [htemplate] at hrender
      rw [process, run, having, hrender ⟨collected, false⟩ rfl, Bool.or_false,
        Template.fill_eq_weave]
      rfl

/-- **What a call leaves behind** are values that it has bound, and nothing else. -/
theorem exists_after_having (call : Call) :
    ∃ later, (having s collected).after call = having s later := by
  cases call with
  | compile n =>
      have hmode := n.inDdl_render s ⟨[], false⟩
      rcases hn : n.render s ⟨[], false⟩ with ⟨outcome, params, inDdl⟩
      rw [hn] at hmode
      obtain rfl : inDdl = false := hmode
      cases outcome with
      | error e => exact ⟨params, by simp only [after, compile, having, hn]⟩
      | ok sql => exact ⟨[], by simp only [after, compile, having, hn]⟩
  | process n =>
      have hmode := n.inDdl_render s ⟨collected, false⟩
      exact ⟨_, congrArg (Compiler.mk s) (congrArg (Progress.mk _) hmode)⟩
  | constraint k =>
      exact ⟨collected, congrArg Prod.snd (run_of_traceless k.traceless_render collected)⟩
  | createTable t =>
      exact ⟨collected, congrArg Prod.snd (run_of_traceless t.traceless_render collected)⟩

/-- After any calls there are values that have been bound, and nothing else. -/
theorem exists_foldl_after (calls : List Call) :
    ∃ collected, calls.foldl after (new s) = having s collected := by
  refine List.foldlRecOn calls after (motive := fun c => ∃ collected, c = having s collected)
    ⟨[], rfl⟩ ?_
  rintro c ⟨collected, rfl⟩ call -
  exact exists_after_having s collected call

/-- **After any calls a compiler is as good as new**, whether they failed or not. It is not in the
middle of a definition. What it compiles and what it defines is what a new compiler compiles and
defines, and a definition changes nothing in it, even if it fails. What it processes is what a new
compiler processes, and leaves the same values behind, but for the numbers of the placeholders,
which go on from the values that it has bound. -/
theorem calls_leave_no_trace (s : Settings) (calls : List Call) :
    let c := calls.foldl after (new s)
    c.settings = s ∧ c.progress.inDdl = false ∧
    (∀ n, (c.compile n).1 = ((new s).compile n).1) ∧
    (∀ k, c.constraint k = (((new s).constraint k).1, c)) ∧
    (∀ t, c.createTable t = (((new s).createTable t).1, c)) ∧
    ∀ n,
      (∃ e vs, c.process n = (.error e, c.record vs) ∧
        (new s).process n = (.error e, (new s).record vs)) ∨
      ∃ segments vs, segments.length = vs.length + 1 ∧
        c.process n =
          (.ok (Template.weave segments (s.fillings c.progress.params.length vs)), c.record vs) ∧
        (new s).process n =
          (.ok (Template.weave segments (s.fillings 0 vs)), (new s).record vs) := by
  obtain ⟨collected, hc⟩ := exists_foldl_after s calls
  rw [hc]
  refine ⟨rfl, rfl, fun n => rfl, fun k => ?_, fun t => ?_, fun n => ?_⟩
  · exact run_of_traceless k.traceless_render collected
  · exact run_of_traceless t.traceless_render collected
  · rcases process_cases s n with ⟨e, vs, hfails⟩ | ⟨t, hfills⟩
    · exact .inl ⟨e, vs, hfails collected, hfails []⟩
    · exact .inr ⟨t.segments, t.values, t.length_segments, hfills collected, hfills []⟩

end Compiler

end SqlClause
