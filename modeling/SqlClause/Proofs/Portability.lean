import SqlClause.Proofs.Coverage

/-!
# What databases agree on

The compiler of PostgreSQL knows more kinds of clauses than the one of standard SQL, casts text
search configurations where it binds them, and writes the terms of `DISTINCT ON`. That is all that
sets the layouts of the two apart. A tree that has none of it has one template for both, so the
texts are the same but for the placeholders.

* `Clause.layout_congr`: what the layout of a clause depends on;
* `Node.template_congr`: trees have one template in two styles if their nodes have one layout;
* **`Compiler.postgresql_extends_generic`**: both compilers fill the same segments.
-/

namespace SqlClause

namespace Clause

variable {α : Type}

/-! ## 1. What tells databases apart -/

/-- The clause binds a text search configuration. -/
def bindsRegconfig : Clause α → Bool
  | bind p => p.type.isRegconfig
  | _ => false

/-- The clause is a statement with terms of `DISTINCT ON` that are its own. -/
def hasOwnTerms : Clause α → Bool
  | select s => !s.distinctOn.isEmpty
  | _ => false

/-- **The layout of a clause depends on how identifiers are quoted and on whether a definition is
rendered.** Nothing else matters unless it is there. -/
theorem layout_congr {σ τ : Style} (hquote : σ.quote = τ.quote) (hddl : σ.inDdl = τ.inDdl)
    (casting casting' : Bool) (sources : List Relation) {c : Clause α}
    (hregconfig : c.bindsRegconfig = false) (hterms : c.hasOwnTerms = false) :
    c.layout σ casting sources = c.layout τ casting' sources := by
  obtain ⟨quote, supports, registry, inDdl⟩ := σ
  obtain ⟨quote', supports', registry', inDdl'⟩ := τ
  obtain rfl : quote = quote' := hquote
  obtain rfl : inDdl = inDdl' := hddl
  cases c with
  | bind p =>
      have hplain : p.type.isRegconfig = false := hregconfig
      rw [layout, layout, hplain, Bool.and_false, Bool.and_false]
  | select s =>
      have hword : ∀ σ : Style, Layout.distinctWord σ s =
          Layout.fixed (if s.distinct then "DISTINCT " else "") := by
        intro σ
        have hempty : (!s.distinctOn.isEmpty) = false := hterms
        rw [Layout.distinctWord, hempty, Bool.false_and, if_neg Bool.false_ne_true]
      rw [layout, layout, Layout.select, Layout.select, hword, hword]
      rfl
  | _ => rfl

end Clause

/-! ## 2. One template in two styles -/

section

variable {σ τ : Style}

/-- **Trees have one template in two styles if each of their nodes has one layout.** -/
theorem Node.template_congr : ∀ n : Node,
    (∀ m ∈ n.preorder, σ.layoutFor m.sources m.clause = τ.layoutFor m.sources m.clause) →
    n.template σ = n.template τ := by
  apply induction
  intro c ih h
  obtain ⟨hroot, hparts⟩ := forall_preorder_mk.mp h
  have hlayouts : σ.layoutFor (mk c).sources c = τ.layoutFor (mk c).sources c := hroot
  rw [template_mk, template_mk, hlayouts]
  cases hlayout : τ.layoutFor (mk c).sources c with
  | error e => rfl
  | ok layout =>
      have hmap : layout.map (template σ) = layout.map (template τ) :=
        Layout.map_congr fun n hn =>
          have hpart := Style.mem_parts_of_layoutFor hlayout hn
          ih n hpart (hparts n hpart)
      exact congrArg Layout.template hmap

/-- Registries that have a rule for a clause lay it out alike. -/
theorem Style.layoutFor_congr (hσ : σ.registry.Faithful) (hτ : τ.registry.Faithful)
    (hquote : σ.quote = τ.quote) (hddl : σ.inDdl = τ.inDdl) (sources : List Relation)
    {c : Clause Node} (hc : c.isCustom = false) (hcovers : σ.registry.element? c.tag ≠ none)
    (hcovers' : τ.registry.element? c.tag ≠ none) (hregconfig : c.bindsRegconfig = false)
    (hterms : c.hasOwnTerms = false) : σ.layoutFor sources c = τ.layoutFor sources c := by
  obtain ⟨rule, hrule⟩ := Option.ne_none_iff_exists'.mp hcovers
  obtain ⟨rule', hrule'⟩ := Option.ne_none_iff_exists'.mp hcovers'
  rw [layoutFor_of_some hσ hc hrule, layoutFor_of_some hτ hc hrule']
  exact congrArg _ (Clause.layout_congr hquote hddl _ _ sources hregconfig hterms)

/-- A tree of core kinds that has nothing to tell databases apart has one template with either
registry. -/
theorem Node.exists_shared_template (hσ : σ.registry = .postgresql) (hτ : τ.registry = .core)
    (hquote : σ.quote = τ.quote) (hddl : σ.inDdl = τ.inDdl) (n : Node)
    (hcore : ∀ m ∈ n.preorder, m.clause.isCore = true)
    (hregconfig : ∀ m ∈ n.preorder, m.clause.bindsRegconfig = false)
    (hterms : ∀ m ∈ n.preorder, m.clause.hasOwnTerms = false) :
    ∃ t, n.template σ = .ok t ∧ n.template τ = .ok t := by
  have hcustom : ∀ m ∈ n.preorder, m.clause.isCustom = false :=
    fun m hm => Clause.isCustom_of_isCore _ (hcore m hm)
  have hfaithful : σ.registry.Faithful := hσ ▸ Registry.faithful_postgresql
  have hfaithful' : τ.registry.Faithful := hτ ▸ Registry.faithful_core
  have hcovers : ∀ m ∈ n.preorder, σ.registry.element? m.tag ≠ none := by
    rw [hσ]
    exact fun m hm => Registry.element?_postgresql_ne_none (hcustom m hm)
  have hcovers' : ∀ m ∈ n.preorder, τ.registry.element? m.tag ≠ none := by
    rw [hτ]
    exact fun m hm => Registry.element?_core_ne_none (hcore m hm)
  have hsame : n.template σ = n.template τ :=
    template_congr n fun m hm => Style.layoutFor_congr hfaithful hfaithful' hquote hddl m.sources
      (hcustom m hm) (hcovers m hm) (hcovers' m hm) (hregconfig m hm) (hterms m hm)
  have hforeign : ∀ m ∈ n.preorder, m.clause.isCustom = true →
      τ.registry.element? m.tag = none :=
    fun m hm h => nomatch (hcustom m hm).symm.trans h
  obtain ⟨t, ht⟩ := (exists_template_iff hfaithful' n hforeign).mpr fun m hm =>
    hcovers' m (mem_preorder_of_shows hm)
  exact ⟨t, hsame.trans ht, ht⟩

end

/-! ## 3. The compilers of PostgreSQL and of standard SQL -/

namespace Compiler

/-- What stands at the places of the values is all that there is to the two ways to compile. -/
theorem compile_weaves (d : Dialect) (r : Registry) (collected : List Value) {n : Node}
    {t : Template} (h : n.template (Settings.style ⟨d, r, false⟩ false) = .ok t) :
    ((having ⟨d, r, true⟩ collected).compile n).1 =
      .ok ⟨Template.weave t.segments (t.values.map Value.inline), []⟩ ∧
    ((having ⟨d, r, false⟩ collected).compile n).1 =
      .ok ⟨Template.weave t.segments ((List.range' 1 t.values.length).map d.placeholder),
        t.values⟩ := by
  constructor
  · rw [compile_of_template ⟨d, r, true⟩ collected n h, Settings.fill_inline]
    rfl
  · rw [compile_of_template ⟨d, r, false⟩ collected n h, Settings.fill_placeholders]
    rfl

/-- **The compiler of PostgreSQL extends that of standard SQL.** Both compile every tree of core
kinds that binds no text search configuration and in which no statement has terms of `DISTINCT ON`
of its own. With the values written into the text the results are the same; without, they are
segments and values that both share, and between the segments stand numbered placeholders on one
side and question marks on the other. -/
theorem postgresql_extends_generic (n : Node)
    (hcore : ∀ m ∈ n.iterate, m.clause.isCore = true)
    (hregconfig : ∀ m ∈ n.iterate, m.clause.bindsRegconfig = false)
    (hterms : ∀ m ∈ n.iterate, m.clause.hasOwnTerms = false) :
    ∃ segments values, segments.length = values.length + 1 ∧ ∀ collected,
      ((having ⟨.postgresql, .postgresql, true⟩ collected).compile n).1 =
        .ok ⟨Template.weave segments (values.map Value.inline), []⟩ ∧
      ((having ⟨.generic, .core, true⟩ collected).compile n).1 =
        .ok ⟨Template.weave segments (values.map Value.inline), []⟩ ∧
      ((having ⟨.postgresql, .postgresql, false⟩ collected).compile n).1 =
        .ok ⟨Template.weave segments
          ((List.range' 1 values.length).map fun i => "$" ++ i.repr), values⟩ ∧
      ((having ⟨.generic, .core, false⟩ collected).compile n).1 =
        .ok ⟨Template.weave segments (List.replicate values.length "?"), values⟩ := by
  rw [Node.iterate_eq_preorder] at hcore hregconfig hterms
  obtain ⟨t, hpostgresql, hgeneric⟩ := Node.exists_shared_template
    (σ := Settings.style ⟨.postgresql, .postgresql, false⟩ false)
    (τ := Settings.style ⟨.generic, .core, false⟩ false) rfl rfl rfl rfl n hcore hregconfig hterms
  have hmarks : (List.range' 1 t.values.length).map Dialect.generic.placeholder =
      List.replicate t.values.length "?" := by
    have hconst : Dialect.generic.placeholder = fun _ => "?" := rfl
    rw [hconst, List.map_const', List.length_range']
  refine ⟨t.segments, t.values, t.length_segments, fun collected => ?_⟩
  obtain ⟨hinline, hnumbered⟩ := compile_weaves .postgresql .postgresql collected hpostgresql
  obtain ⟨hinline', hmarked⟩ := compile_weaves .generic .core collected hgeneric
  rw [hmarks] at hmarked
  exact ⟨hinline, hinline', hnumbered, hmarked⟩

/-- A statement with one value among its columns and one in its condition. -/
def filtered : Node :=
  Node.select { Select.ofColumns [Node.column "id", Node.literal (.int 1)] with
    criterion := some ((Node.column "id").op .lt (Node.literal (.int 2))) }

/-- The three texts of the statement, woven from the same segments. -/
theorem postgresql_extends_generic_filtered :
    (∀ m ∈ filtered.iterate, m.clause.isCore = true ∧ m.clause.bindsRegconfig = false ∧
      m.clause.hasOwnTerms = false) ∧
    ∃ segments, segments.length = 3 ∧
      Template.weave segments ["1", "2"] = "SELECT id, 1 WHERE id < 2" ∧
      Template.weave segments ["$1", "$2"] = "SELECT id, $1 WHERE id < $2" ∧
      Template.weave segments ["?", "?"] = "SELECT id, ? WHERE id < ?" := by
  have hplain : ∀ m ∈ filtered.iterate, m.clause.isCore = true ∧
      m.clause.bindsRegconfig = false ∧ m.clause.hasOwnTerms = false := by
    rw [Node.iterate_eq_preorder]
    decide
  obtain ⟨segments, values, hlength, hall⟩ := postgresql_extends_generic filtered
    (fun m hm => (hplain m hm).1) (fun m hm => (hplain m hm).2.1) (fun m hm => (hplain m hm).2.2)
  obtain ⟨hinline, -, hnumbered, hmarked⟩ := hall []
  have hinline' : ((having ⟨.postgresql, .postgresql, true⟩ []).compile filtered).1 =
      .ok ⟨"SELECT id, 1 WHERE id < 2", []⟩ := by decide
  have hnumbered' : ((having ⟨.postgresql, .postgresql, false⟩ []).compile filtered).1 =
      .ok ⟨"SELECT id, $1 WHERE id < $2", [.int 1, .int 2]⟩ := by decide
  have hmarked' : ((having ⟨.generic, .core, false⟩ []).compile filtered).1 =
      .ok ⟨"SELECT id, ? WHERE id < ?", [.int 1, .int 2]⟩ := by decide
  obtain ⟨htext, rfl⟩ := Compiled.mk.inj (Except.ok.inj (hnumbered.symm.trans hnumbered'))
  exact ⟨hplain, segments, hlength,
    (Compiled.mk.inj (Except.ok.inj (hinline.symm.trans hinline'))).1, htext,
    (Compiled.mk.inj (Except.ok.inj (hmarked.symm.trans hmarked'))).1⟩

end Compiler

end SqlClause
