import SqlClause.Compiler
import SqlClause.Proofs.Layout

/-!
# Templates

The template of a tree is its text with the places of the values left open. It does not depend on
what becomes of the values, so rendering with placeholders and rendering with the values written
into the text fill one template in two ways: the value at a place gets the placeholder of its
position, counted from the values bound before, or stands there itself.

* `Node.template_mk`: the template of a node, from the templates of its parts;
* `Node.realizes_template`: a rendering fills the template and binds its values in order;
* **`Compiler.compile_weaves_template`**: the two ways to compile fill the same segments.
-/

namespace SqlClause

/-- A text with the places of its values left open. -/
abbrev Template := List Piece

namespace Template

/-! ## 1. Filling a template -/

/-- The template with each value at its place as `f` writes it, which sees how many values are
before it, the `k` of an earlier text included. -/
def fill (f : Nat → Value → String) : Nat → Template → String
  | _, [] => ""
  | k, .text s :: rest => s ++ fill f k rest
  | k, .value v :: rest => f k v ++ fill f (k + 1) rest

/-- The values of a template, in the order of their places. -/
def values (t : Template) : List Value :=
  t.filterMap fun | .value v => some v | .text _ => none

@[simp] theorem values_nil : values [] = [] := rfl

@[simp] theorem values_text (s : String) (t : Template) : values (.text s :: t) = values t := rfl

@[simp] theorem values_value (v : Value) (t : Template) :
    values (.value v :: t) = v :: values t := rfl

theorem values_append (t u : Template) : values (t ++ u) = values t ++ values u :=
  List.filterMap_append

theorem fill_append (f : Nat → Value → String) : ∀ (t u : Template) (k : Nat),
    fill f k (t ++ u) = fill f k t ++ fill f (k + (values t).length) u
  | [], u, k => by simp [fill]
  | .text s :: t, u, k => by
      simp only [List.cons_append, fill, fill_append f t u, values_text, String.append_assoc]
  | .value v :: t, u, k => by
      simp only [List.cons_append, fill, fill_append f t u, values_value, List.length_cons,
        String.append_assoc]
      rw [Nat.add_assoc, Nat.add_comm 1]

/-- Where the count does not matter, it does not matter from where one counts. -/
theorem fill_const (g : Value → String) : ∀ (t : Template) (k l : Nat),
    fill (fun _ => g) k t = fill (fun _ => g) l t
  | [], _, _ => rfl
  | .text _ :: t, k, l => congrArg _ (fill_const g t k l)
  | .value _ :: t, k, l => congrArg _ (fill_const g t (k + 1) (l + 1))

end Template

/-! ## 2. The template of a tree -/

/-- The template of a layout, from those of its parts; the first part without one decides. -/
def Layout.template : Layout (Except Error Template) → Except Error Template
  | [] => return []
  | .piece p :: rest => return p :: (← Layout.template rest)
  | .part t :: rest => return (← t) ++ (← Layout.template rest)

/-- The rule for a clause: the registry has one, and it is for clauses of this kind. -/
def Style.ruleFor {α : Type} (σ : Style) (c : Clause α) : Except Error ElementRule :=
  match σ.registry.element? c.tag with
  | none => .error (.noRule c.tag)
  | some rule => if rule ∈ c.rules then .ok rule else .error (.wrongClause c.tag)

/-- The layout of a clause by the rule that is found for it. -/
def Style.layoutFor {α : Type} (σ : Style) (sources : List Relation) (c : Clause α) :
    Except Error (Layout α) := do
  return c.layout σ ((← σ.ruleFor c) == .castingBind) sources

namespace Node

/-- The text of a tree with the places of its values left open. -/
def template (σ : Style) : Node → Except Error Template :=
  fold fun n c => do Layout.template (← σ.layoutFor n.sources c)

end Node

theorem Style.ruleFor_map {α β : Type} (f : α → β) (σ : Style) (c : Clause α) :
    σ.ruleFor (c.map f) = σ.ruleFor c := by
  rw [ruleFor, ruleFor, Clause.tag_map, Clause.rules_map]

theorem Style.layoutFor_map {α β : Type} (f : α → β) (σ : Style) (sources : List Relation)
    (c : Clause α) :
    σ.layoutFor sources (c.map f) = (σ.layoutFor sources c).map (Layout.map f) := by
  rw [layoutFor, layoutFor, ruleFor_map]
  cases σ.ruleFor c with
  | error e => rfl
  | ok rule =>
      exact congrArg Except.ok (Clause.layout_map f σ (rule == .castingBind) sources c)

/-- A clause has the layout of the rule that is registered for its tag and is for such clauses. -/
theorem Style.layoutFor_of_rule {α : Type} {σ : Style} {c : Clause α} {rule : ElementRule}
    (hrule : σ.registry.element? c.tag = some rule) (hmem : rule ∈ c.rules)
    (sources : List Relation) :
    σ.layoutFor sources c = .ok (c.layout σ (rule == .castingBind) sources) := by
  have hruleFor : σ.ruleFor c = .ok rule := by
    rw [ruleFor, hrule]
    exact if_pos hmem
  rw [layoutFor, hruleFor]
  rfl

/-- **The template of a node comes from the layout of its clause and the templates of its
parts.** -/
theorem Node.template_mk (σ : Style) (c : Clause Node) :
    (mk c).template σ = (do
      let layout ← σ.layoutFor (mk c).sources c
      Layout.template (layout.map (template σ))) := by
  rw [template, fold_mk, Style.layoutFor_map]
  cases σ.layoutFor (mk c).sources c <;> rfl

/-! ## 3. Renderings fill templates -/

/-- What stands for a value behind `k` others: the value itself or a placeholder. -/
def Settings.filling (s : Settings) (inlines : Bool) (k : Nat) (v : Value) : String :=
  if inlines then v.inline else s.dialect.placeholder (k + 1)

/-- The progress with values recorded, unless they are written into the text. -/
def Progress.record (p : Progress) (inlines : Bool) (vs : List Value) : Progress :=
  if inlines then p else { p with params := p.params ++ vs }

namespace Progress

variable (p : Progress) (inlines : Bool)

@[simp] theorem inDdl_record (vs : List Value) : (p.record inlines vs).inDdl = p.inDdl := by
  cases inlines <;> rfl

@[simp] theorem record_nil : p.record inlines [] = p := by
  cases inlines
  · rw [record, if_neg Bool.false_ne_true, List.append_nil]
  · rfl

theorem record_append (vs ws : List Value) :
    p.record inlines (vs ++ ws) = (p.record inlines vs).record inlines ws := by
  cases inlines
  · simp [record]
  · rfl

/-- After values have been recorded, the places are counted on from there. -/
theorem fill_record (s : Settings) (vs : List Value) (t : Template) :
    t.fill (s.filling inlines) (p.record inlines vs).params.length =
      t.fill (s.filling inlines) (p.params.length + vs.length) := by
  cases inlines with
  | true =>
      have hconst : s.filling true = fun _ => Value.inline := rfl
      rw [hconst, Template.fill_const]
  | false => rw [record, if_neg Bool.false_ne_true, List.length_append]

end Progress

/-- The rendering, whether of a definition or not, fills the template and records its values in
order, or fails with the error in the place of the template. Some of the values may be recorded
then. -/
def Realizes (s : Settings) (inDdl : Bool) (x : RenderM String) : Except Error Template → Prop
  | .ok t => ∀ p : Progress, p.inDdl = inDdl →
      x s p = (.ok (t.fill (s.filling (s.literalBinds || inDdl)) p.params.length),
        p.record (s.literalBinds || inDdl) t.values)
  | .error e => ∀ p : Progress, p.inDdl = inDdl →
      ∃ vs, x s p = (.error e, p.record (s.literalBinds || inDdl) vs)

namespace Realizes

variable {s : Settings} {inDdl : Bool}

theorem throw (e : Error) : Realizes s inDdl (throw e) (.error e) := by
  intro p _
  exact ⟨[], by rw [Progress.record_nil]; rfl⟩

theorem pure (text : String) : Realizes s inDdl (pure text) (.ok [.text text]) := by
  intro p _
  rw [Template.values_text, Template.values_nil, Progress.record_nil, Template.fill,
    Template.fill, String.append_empty, RenderM.pure_apply]

theorem bindValue (v : Value) : Realizes s inDdl (RenderM.bindValue v) (.ok [.value v]) := by
  intro p hp
  subst hp
  rw [RenderM.bindValue_apply, Template.values_value, Template.values_nil, Template.fill,
    Template.fill, String.append_empty]
  cases s.literalBinds || p.inDdl <;> rfl

/-- Only what is rendered outside of definitions matters, or inside of them. -/
theorem congr {x y : RenderM String} {t : Except Error Template} (hx : Realizes s inDdl x t)
    (h : ∀ p : Progress, p.inDdl = inDdl → y s p = x s p) : Realizes s inDdl y t := by
  cases t with
  | error e => exact fun p hp => by rw [h p hp]; exact hx p hp
  | ok t => exact fun p hp => by rw [h p hp]; exact hx p hp

/-- One rendering after the other fills one template after the other. -/
theorem append {x y : RenderM String} {t u : Except Error Template} (hx : Realizes s inDdl x t)
    (hy : Realizes s inDdl y u) :
    Realizes s inDdl (do return (← x) ++ (← y)) (do return (← t) ++ (← u)) := by
  cases t with
  | error e =>
      intro p hp
      obtain ⟨vs, hxp⟩ := hx p hp
      exact ⟨vs, by rw [RenderM.bind_apply, hxp]⟩
  | ok t =>
      have hlater : ∀ p : Progress, p.inDdl = inDdl →
          (p.record (s.literalBinds || inDdl) t.values).inDdl = inDdl :=
        fun p hp => (Progress.inDdl_record ..).trans hp
      cases u with
      | error e =>
          intro p hp
          obtain ⟨vs, hyp⟩ := hy _ (hlater p hp)
          refine ⟨t.values ++ vs, ?_⟩
          rw [RenderM.bind_apply, hx p hp, Progress.record_append, ← hyp]
          simp only [RenderM.bind_apply, hyp]
      | ok u =>
          intro p hp
          rw [RenderM.bind_apply, hx p hp]
          simp only [RenderM.bind_apply, hy _ (hlater p hp), RenderM.pure_apply,
            Progress.fill_record, Template.values_append, Progress.record_append,
            Template.fill_append]

/-- A layout whose parts fill their templates fills its own. -/
theorem run_layout {σ : Style} : ∀ {l : Layout Node},
    (∀ n ∈ l.parts, Realizes s inDdl n.render (n.template σ)) →
    Realizes s inDdl (l.map Node.render).run (l.map (Node.template σ)).template
  | [], _ => by
      intro p _
      rw [Template.values_nil, Progress.record_nil]
      rfl
  | .piece (.text text) :: rest, h => append (pure text) (run_layout (l := rest) h)
  | .piece (.value v) :: rest, h => append (bindValue v) (run_layout (l := rest) h)
  | .part n :: rest, h =>
      append (h n List.mem_cons_self)
        (run_layout (l := rest) fun m hm => h m (List.mem_cons_of_mem _ hm))

end Realizes

/-- There is a rule for built-in clauses only, and a layout by a rule is a layout of the clause. -/
theorem Style.layout_of_layoutFor {α : Type} {σ : Style} {sources : List Relation} {c : Clause α}
    {l : Layout α} (h : σ.layoutFor sources c = .ok l) :
    c.isCustom = false ∧ ∃ casting, l = c.layout σ casting sources := by
  cases hrule : σ.ruleFor c with
  | error e =>
      rw [layoutFor, hrule] at h
      cases h
  | ok rule =>
      rw [layoutFor, hrule] at h
      have hlayout : l = c.layout σ (rule == .castingBind) sources := (Except.ok.inj h).symm
      refine ⟨?_, _, hlayout⟩
      cases c with
      | custom tag attributes =>
          unfold ruleFor at hrule
          split at hrule
          · cases hrule
          · rw [if_neg (by exact List.not_mem_nil)] at hrule
            cases hrule
      | _ => rfl

theorem Style.mem_parts_of_layoutFor {α : Type} {σ : Style} {sources : List Relation}
    {c : Clause α} {l : Layout α} (h : σ.layoutFor sources c = .ok l) {a : α}
    (ha : a ∈ l.parts) : a ∈ c.parts := by
  obtain ⟨-, casting, rfl⟩ := layout_of_layoutFor h
  exact Clause.mem_parts_of_layout ha

theorem RenderM.elementRule_apply (tag : String) (s : Settings) (p : Progress) :
    elementRule tag s p = match s.registry.element? tag with
      | some rule => (.ok rule, p)
      | none => (.error (.noRule tag), p) := by
  simp only [elementRule, bind_apply, read_apply]
  cases s.registry.element? tag <;> rfl

/-- A node is rendered by the rule for its tag. -/
theorem Node.render_of_rule {c : Clause Node} {s : Settings} {rule : ElementRule}
    (h : s.registry.element? c.tag = some rule) :
    (mk c).render s = rule.apply (mk c).sources (c.map render) s := by
  funext p
  rw [render_mk, RenderM.bind_apply, RenderM.elementRule_apply, h]

/-- A node is rendered by the rule for its clause, which does the layout of the clause. -/
theorem Node.render_apply (c : Clause Node) (s : Settings) (p : Progress) :
    (mk c).render s p = match (s.style p.inDdl).layoutFor (mk c).sources c with
      | .ok layout => (layout.map render).run s p
      | .error e => (.error e, p) := by
  have hregistry : (s.style p.inDdl).registry = s.registry := rfl
  rw [render_mk, RenderM.bind_apply, RenderM.elementRule_apply, Style.layoutFor, Style.ruleFor,
    hregistry]
  cases s.registry.element? c.tag with
  | none => rfl
  | some rule =>
      by_cases hrule : rule ∈ c.rules
      · have hmapped : rule ∈ (c.map render).rules := by rwa [Clause.rules_map]
        simp only [if_pos hrule, ElementRule.apply_of_mem hmapped, Clause.layout_map]
        rfl
      · have hmapped : rule ∉ (c.map render).rules := by rwa [Clause.rules_map]
        simp only [if_neg hrule, ElementRule.apply_of_not_mem hmapped, Clause.tag_map,
          RenderM.throw_apply]
        rfl

/-- **A rendering fills the template of the tree and binds its values in order.** -/
theorem Node.realizes_template (s : Settings) (inDdl : Bool) :
    ∀ n : Node, Realizes s inDdl n.render (n.template (s.style inDdl)) := by
  apply induction
  intro c ih
  rw [template_mk]
  cases hlayout : (s.style inDdl).layoutFor (mk c).sources c with
  | error e =>
      intro p hp
      exact ⟨[], by rw [render_apply, hp, hlayout, Progress.record_nil]⟩
  | ok layout =>
      have hrun : Realizes s inDdl (layout.map render).run
          (Layout.template (layout.map (template (s.style inDdl)))) :=
        Realizes.run_layout fun n hn => ih n (Style.mem_parts_of_layoutFor hlayout hn)
      refine hrun.congr fun p hp => ?_
      rw [render_apply, hp, hlayout]

/-! ## 4. Segments -/

namespace Template

/-- The fixed texts of a template: before, between and behind its values. -/
def segments : Template → List String
  | [] => [""]
  | .text s :: rest => match segments rest with
      | [] => [s]
      | segment :: later => (s ++ segment) :: later
  | .value _ :: rest => "" :: segments rest

/-- The segments with one filling between each two of them. -/
def weave : List String → List String → String
  | [], _ => ""
  | segment :: _, [] => segment
  | segment :: segments, filling :: fillings => segment ++ filling ++ weave segments fillings

/-- There is one segment more than there are values. -/
theorem length_segments : ∀ t : Template, t.segments.length = t.values.length + 1
  | [] => rfl
  | .value _ :: t => congrArg (· + 1) (length_segments t)
  | .text _ :: t => by
      have hlength := length_segments t
      rw [values_text, segments]
      cases hsegments : segments t with
      | nil => rw [hsegments] at hlength; cases hlength
      | cons segment later => rwa [hsegments] at hlength

theorem weave_segments_text (s : String) (t : Template) (fillings : List String) :
    weave (segments (.text s :: t)) fillings = s ++ weave t.segments fillings := by
  have hlength := length_segments t
  rw [segments]
  cases hsegments : segments t with
  | nil => rw [hsegments] at hlength; cases hlength
  | cons segment later =>
      cases fillings with
      | nil => rfl
      | cons filling fillings => simp only [weave, String.append_assoc]

/-- **Filling a template weaves what is filled in between its segments.** -/
theorem fill_eq_weave (f : Nat → Value → String) : ∀ (t : Template) (k : Nat),
    t.fill f k = weave t.segments (t.values.mapIdx fun i v => f (k + i) v)
  | [], _ => rfl
  | .text s :: t, k => by
      rw [fill, fill_eq_weave f t k, weave_segments_text, values_text]
  | .value v :: t, k => by
      have hlater : (fun i v => f (k + (i + 1)) v) = fun i v => f (k + 1 + i) v := by
        funext i v
        rw [Nat.add_assoc, Nat.add_comm 1]
      rw [fill, fill_eq_weave f t (k + 1), values_value, List.mapIdx_cons, segments, weave,
        String.empty_append, hlater]
      rfl

end Template

namespace Settings

variable (s : Settings) (t : Template) (k : Nat)

/-- The placeholders are those of the positions after the `k` values before. -/
theorem fill_placeholders : t.fill (s.filling false) k =
    Template.weave t.segments
      ((List.range' (k + 1) t.values.length).map s.dialect.placeholder) := by
  have hfillings : (t.values.mapIdx fun i v => s.filling false (k + i) v) =
      (List.range' (k + 1) t.values.length).map s.dialect.placeholder := by
    apply List.ext_getElem
    · simp
    · intro i _ _
      simp [filling, Nat.add_right_comm]
  rw [Template.fill_eq_weave, hfillings]

/-- Values written into the text do not depend on their positions. -/
theorem fill_inline : t.fill (s.filling true) k =
    Template.weave t.segments (t.values.map Value.inline) := by
  have hfillings : (t.values.mapIdx fun i v => s.filling true (k + i) v) =
      t.values.map Value.inline := by
    apply List.ext_getElem
    · simp
    · intro i _ _
      simp [filling]
  rw [Template.fill_eq_weave, hfillings]

end Settings

/-! ## 5. Both ways to compile -/

/-- The settings with another name and other placeholders for the dialect, and with values written
into the text or not. -/
def Settings.respelled (s : Settings) (name : String) (placeholder : Nat → String)
    (literalBinds : Bool) : Settings :=
  { s with dialect := { s.dialect with name, placeholder }, literalBinds }

theorem Settings.literalBinds_respelled (s : Settings) (name : String)
    (placeholder : Nat → String) (literalBinds : Bool) :
    (s.respelled name placeholder literalBinds).literalBinds = literalBinds := rfl

namespace Compiler

/-- Nodes that are rendered alike compile alike. -/
theorem compile_congr {c : Compiler} {n m : Node} (h : n.render c.settings = m.render c.settings) :
    c.compile n = c.compile m := by
  rw [compile, compile, h]

/-- A compiler that has bound values so far. -/
def having (s : Settings) (collected : List Value) : Compiler := ⟨s, ⟨collected, false⟩⟩

variable (s : Settings) (collected : List Value) (n : Node)

/-- To compile is to process with nothing bound. -/
theorem compile_eq_process : ((having s collected).compile n).1 =
    ((having s []).process n).1.map fun sql =>
      ⟨sql, ((having s []).process n).2.progress.params⟩ := by
  unfold compile process run having
  rcases n.render s ⟨[], false⟩ with ⟨e | sql, later⟩ <;> rfl

theorem process_of_template {t : Template} (h : n.template (s.style false) = .ok t) :
    (having s collected).process n =
      (.ok (t.fill (s.filling s.literalBinds) collected.length),
        having s (if s.literalBinds then collected else collected ++ t.values)) := by
  have hrender := Node.realizes_template s false n
  rw [h] at hrender
  rw [process, run, having, hrender ⟨collected, false⟩ rfl, Bool.or_false]
  cases s.literalBinds <;> rfl

theorem process_of_error {e : Error} (h : n.template (s.style false) = .error e) :
    ((having s collected).process n).1 = .error e := by
  have hrender := Node.realizes_template s false n
  rw [h] at hrender
  obtain ⟨vs, hfails⟩ := hrender ⟨collected, false⟩ rfl
  rw [process, run, having, hfails]

theorem compile_of_template {t : Template} (h : n.template (s.style false) = .ok t) :
    ((having s collected).compile n).1 =
      .ok ⟨t.fill (s.filling s.literalBinds) 0, if s.literalBinds then [] else t.values⟩ := by
  rw [compile_eq_process, process_of_template s [] n h]
  rfl

theorem compile_of_error {e : Error} (h : n.template (s.style false) = .error e) :
    ((having s collected).compile n).1 = .error e := by
  rw [compile_eq_process, process_of_error s [] n h]
  rfl

/-- What is compiled comes from a template. -/
theorem template_of_compile {r : Compiled} (h : ((having s collected).compile n).1 = .ok r) :
    ∃ t, n.template (s.style false) = .ok t ∧
      r = ⟨t.fill (s.filling s.literalBinds) 0, if s.literalBinds then [] else t.values⟩ := by
  cases htemplate : n.template (s.style false) with
  | error e =>
      rw [compile_of_error s collected n htemplate] at h
      cases h
  | ok t =>
      rw [compile_of_template s collected n htemplate] at h
      exact ⟨t, rfl, (Except.ok.inj h).symm⟩

/-- **The two ways to compile fill the same segments.** Dialects that quote alike and agree on
`DISTINCT ON` fail with the same error, or there are segments and values that all of them share:
between the segments stand the placeholders of the values, counted from the values collected
before, or the values themselves. -/
theorem compile_weaves_template (s : Settings) (n : Node) :
    (∃ e, ∀ name placeholder literalBinds collected,
      ((having (s.respelled name placeholder literalBinds) collected).compile n).1 = .error e ∧
      ((having (s.respelled name placeholder literalBinds) collected).process n).1 = .error e) ∨
    ∃ segments values, segments.length = values.length + 1 ∧
      ∀ name placeholder collected,
        ((having (s.respelled name placeholder false) collected).compile n).1 =
          .ok ⟨Template.weave segments ((List.range' 1 values.length).map placeholder), values⟩ ∧
        ((having (s.respelled name placeholder true) collected).compile n).1 =
          .ok ⟨Template.weave segments (values.map Value.inline), []⟩ ∧
        (having (s.respelled name placeholder false) collected).process n =
          (.ok (Template.weave segments
              ((List.range' (collected.length + 1) values.length).map placeholder)),
            having (s.respelled name placeholder false) (collected ++ values)) ∧
        (having (s.respelled name placeholder true) collected).process n =
          (.ok (Template.weave segments (values.map Value.inline)),
            having (s.respelled name placeholder true) collected) := by
  have hstyle : ∀ name placeholder literalBinds,
      (s.respelled name placeholder literalBinds).style false = s.style false :=
    fun _ _ _ => rfl
  cases htemplate : n.template (s.style false) with
  | error e =>
      left
      refine ⟨e, fun name placeholder literalBinds collected => ?_⟩
      have h := (congrArg n.template (hstyle name placeholder literalBinds)).trans htemplate
      exact ⟨compile_of_error _ collected n h, process_of_error _ collected n h⟩
  | ok t =>
      right
      refine ⟨t.segments, t.values, t.length_segments, fun name placeholder collected => ?_⟩
      have hbound := (congrArg n.template (hstyle name placeholder false)).trans htemplate
      have hinline := (congrArg n.template (hstyle name placeholder true)).trans htemplate
      have hplaceholders : ∀ k, t.fill ((s.respelled name placeholder false).filling false) k =
          Template.weave t.segments ((List.range' (k + 1) t.values.length).map placeholder) :=
        Settings.fill_placeholders _ t
      refine ⟨?_, ?_, ?_, ?_⟩
      · rw [compile_of_template _ collected n hbound, Settings.literalBinds_respelled,
          hplaceholders]
        rfl
      · rw [compile_of_template _ collected n hinline, Settings.literalBinds_respelled,
          Settings.fill_inline]
        rfl
      · rw [process_of_template _ collected n hbound, Settings.literalBinds_respelled,
          hplaceholders]
        rfl
      · rw [process_of_template _ collected n hinline, Settings.literalBinds_respelled,
          Settings.fill_inline]
        rfl

end Compiler

end SqlClause
