import SqlClause.Proofs.KeyReading
import SqlClause.Proofs.Template

/-!
# Trees with one key have one text

A tree and its shape, which has blanks in the place of the values, are rendered alike as long as
values are bound: their templates have the same segments. They are also the same as operands. Since
the key of a tree determines its shape, what was compiled for one tree can be kept under its key and
used for every other tree with that key.

* `Node.template_shape`: the template of a shape is the template with blanks;
* `Compiler.compile_shape`: no bound value has an influence on the text;
* **`Compiler.compile_eq_of_cacheKey_eq`**: trees with one key are compiled alike.
-/

namespace SqlClause

/-! ## 1. Operands -/

namespace Node

theorem dataType_shape (n : Node) : n.shape.dataType = n.dataType :=
  fold_shape (fun c => by cases c <;> rfl) n

theorem isColumnElement_shape (n : Node) : n.shape.isColumnElement = n.isColumnElement :=
  fold_shape (fun c => by cases c <;> rfl) n

theorem relations_shape (n : Node) : n.shape.relations = n.relations := by
  refine fold_shape (fun c => ?_) n
  cases c with
  | custom tag attributes =>
      have hparts := Clause.parts_blank (.custom tag attributes)
      exact congrArg (List.foldl Relation.merge []) hparts
  | _ => rfl

theorem needsGrouping_shape (n : Node) (against : Option Operator) :
    n.shape.needsGrouping against = n.needsGrouping against := by
  cases against with
  | none => rfl
  | some against => exact fold_shape (fun c => by cases c <;> rfl) n

theorem sources_shape (n : Node) : n.shape.sources = n.sources := by
  obtain ⟨c⟩ := n
  rw [shape_mk]
  cases c with
  | select s =>
      have hrelations : relations ∘ shape = relations := funext relations_shape
      have hmapped : ((s.map shape).columns ++ (s.map shape).criterion.toList).map relations =
          (s.columns ++ s.criterion.toList).map relations := by
        rw [Select.map, Option.toList_map, ← List.map_append, List.map_map, hrelations]
      exact congrArg (List.foldl Relation.merge []) hmapped
  | _ => rfl

end Node

/-! ## 2. Templates with blanks -/

namespace Layout

variable {α β : Type}

theorem blank_of_values_eq_nil {l : Layout α} (h : l.values = []) : l.blank = l := by
  induction l with
  | nil => rfl
  | cons segment l ih =>
      rcases segment with (s | v) | a
      · exact congrArg _ (ih h)
      · cases h
      · exact congrArg _ (ih h)

end Layout

/-- The layout of a clause with a blank has the blank in the place of the value. -/
theorem Clause.layout_blank {α : Type} (σ : Style) (casting : Bool) (sources : List Relation)
    (c : Clause α) : c.blank.layout σ casting sources = (c.layout σ casting sources).blank := by
  cases c with
  | bind => rfl
  | custom => rfl
  | _ => exact (Layout.blank_of_values_eq_nil (values_layout ..)).symm

@[simp] theorem Clause.rules_blank {α : Type} (c : Clause α) : c.blank.rules = c.rules := by
  cases c <;> rfl

theorem Style.ruleFor_blank {α : Type} (σ : Style) (c : Clause α) :
    σ.ruleFor c.blank = σ.ruleFor c := by
  rw [ruleFor, ruleFor, Clause.tag_blank, Clause.rules_blank]

theorem Style.layoutFor_blank {α : Type} (σ : Style) (sources : List Relation) (c : Clause α) :
    σ.layoutFor sources c.blank = (σ.layoutFor sources c).map Layout.blank := by
  rw [layoutFor, layoutFor, ruleFor_blank]
  cases σ.ruleFor c with
  | error e => rfl
  | ok rule => exact congrArg Except.ok (Clause.layout_blank σ (rule == .castingBind) sources c)

namespace Template

/-- The template with blanks in the place of its values. -/
def blank (t : Template) : Template :=
  t.map fun | .text s => .text s | .value _ => .value .null

theorem segments_blank : ∀ t : Template, t.blank.segments = t.segments
  | [] => rfl
  | .value _ :: t => congrArg ("" :: ·) (segments_blank t)
  | .text s :: t => by
      have hrest := segments_blank t
      rw [blank] at hrest
      rw [blank, List.map_cons, segments, segments, hrest]

theorem length_values_blank : ∀ t : Template, t.blank.values.length = t.values.length
  | [] => rfl
  | .value _ :: t => congrArg (· + 1) (length_values_blank t)
  | .text _ :: t => length_values_blank t

end Template

namespace Layout

variable {α : Type}

/-- Blanks in the parts of a layout and in its own places are the blanks of its template. -/
theorem template_blank {f g : α → Except Error Template} : ∀ {l : Layout α},
    (∀ a ∈ l.parts, f a = (g a).map Template.blank) →
    template (map f (blank l)) = (template (map g l)).map Template.blank
  | [], _ => rfl
  | .piece (.text s) :: rest, h => by
      have ih := template_blank (l := rest) h
      calc template (map f (blank (.piece (.text s) :: rest)))
        _ = (do return .text s :: (← template (map f (blank rest)))) := rfl
        _ = (do return .text s :: (← template (map g rest)) : Except Error Template).map
              Template.blank := by
            rw [ih]
            cases template (map g rest) <;> rfl
  | .piece (.value v) :: rest, h => by
      have ih := template_blank (l := rest) h
      calc template (map f (blank (.piece (.value v) :: rest)))
        _ = (do return .value .null :: (← template (map f (blank rest)))) := rfl
        _ = (do return .value v :: (← template (map g rest)) : Except Error Template).map
              Template.blank := by
            rw [ih]
            cases template (map g rest) <;> rfl
  | .part a :: rest, h => by
      have ih := template_blank (l := rest) fun b hb => h b (List.mem_cons_of_mem _ hb)
      calc template (map f (blank (.part a :: rest)))
        _ = (do return (← f a) ++ (← template (map f (blank rest)))) := rfl
        _ = (do return (← g a) ++ (← template (map g rest)) : Except Error Template).map
              Template.blank := by
            rw [ih, h a List.mem_cons_self]
            cases g a with
            | error e => rfl
            | ok t =>
                cases template (map g rest) with
                | error e => rfl
                | ok u => exact congrArg Except.ok List.map_append.symm

end Layout

/-- **The template of a shape is the template of the tree with blanks.** -/
theorem Node.template_shape (σ : Style) : ∀ n : Node,
    n.shape.template σ = (n.template σ).map Template.blank := by
  apply induction
  intro c ih
  have hsources := sources_shape (mk c)
  rw [shape_mk] at hsources
  rw [shape_mk, template_mk, template_mk, hsources, Clause.blank_map, Style.layoutFor_map,
    Style.layoutFor_blank]
  cases hlayout : σ.layoutFor (mk c).sources c with
  | error e => rfl
  | ok layout =>
      have hblank := Layout.template_blank (f := template σ ∘ shape) (g := template σ)
        fun n hn => ih n (Style.mem_parts_of_layoutFor hlayout hn)
      rw [← Layout.map_map] at hblank
      exact hblank

/-! ## 3. Compiled trees -/

/-- What can be told of a compiled tree without its values. -/
def Compiled.form (r : Compiled) : String × Nat := (r.sql, r.params.length)

namespace Compiler

/-- What is compiled from a template, apart from the values, depends on its segments and on how
many values it has. -/
theorem form_of_template (d : Dialect) (registry : Registry) (collected : List Value) (n : Node)
    {t : Template} (h : n.template ((Settings.mk d registry false).style false) = .ok t) :
    ((having ⟨d, registry, false⟩ collected).compile n).1.map Compiled.form =
      .ok (Template.weave t.segments ((List.range' 1 t.values.length).map d.placeholder),
        t.values.length) := by
  rw [compile_of_template _ collected n h, Settings.fill_placeholders]
  rfl

/-- **No bound value has an influence on the text**, nor on whether and why there is none. -/
theorem compile_shape (d : Dialect) (registry : Registry) (collected : List Value) (n : Node) :
    ((having ⟨d, registry, false⟩ collected).compile n.shape).1.map Compiled.form =
      ((having ⟨d, registry, false⟩ collected).compile n).1.map Compiled.form := by
  have hshape := Node.template_shape ((Settings.mk d registry false).style false) n
  cases htemplate : n.template ((Settings.mk d registry false).style false) with
  | error e =>
      rw [htemplate] at hshape
      rw [compile_of_error _ collected n htemplate, compile_of_error _ collected n.shape hshape]
  | ok t =>
      rw [htemplate] at hshape
      rw [form_of_template d registry collected n htemplate,
        form_of_template d registry collected n.shape hshape, Template.segments_blank,
        Template.length_values_blank]

/-- **Built-in trees with one key are compiled alike**, by every registry and in every dialect: to
the same text with as many values, or not at all and for the same reason. They have the same type,
mention the same relations, and are the same as operands. In particular a tree is compiled like
its shape. -/
theorem compile_eq_of_cacheKey_eq {n m : Node} (hn : n.BuiltIn) (hm : m.BuiltIn)
    (h : n.cacheKey = m.cacheKey) :
    (∀ d registry collected,
      ((having ⟨d, registry, false⟩ collected).compile n).1.map Compiled.form =
        ((having ⟨d, registry, false⟩ collected).compile m).1.map Compiled.form ∧
      ((having ⟨d, registry, false⟩ collected).compile n.shape).1.map Compiled.form =
        ((having ⟨d, registry, false⟩ collected).compile n).1.map Compiled.form) ∧
    n.dataType = m.dataType ∧ n.isColumnElement = m.isColumnElement ∧
    n.relations = m.relations ∧ ∀ against, n.needsGrouping against = m.needsGrouping against := by
  have hshape : n.shape = m.shape := (Node.cacheKey_eq_iff hn hm).mp h
  refine ⟨fun d registry collected => ?_, ?_, ?_, ?_, fun against => ?_⟩
  · have hn := compile_shape d registry collected n
    have hm := compile_shape d registry collected m
    rw [← hshape] at hm
    exact ⟨hn.symm.trans hm, hn⟩
  · rw [← Node.dataType_shape, hshape, Node.dataType_shape]
  · rw [← Node.isColumnElement_shape, hshape, Node.isColumnElement_shape]
  · rw [← Node.relations_shape, hshape, Node.relations_shape]
  · rw [← Node.needsGrouping_shape, hshape, Node.needsGrouping_shape]

/-- A statement for the rows of a text search configuration. -/
def rowsOf (configuration : Value) : Node :=
  let column : Node := ⟨.column ⟨"c", some ⟨none, "t"⟩, .regconfig, false⟩⟩
  let bound : Node := ⟨.bind ⟨none, configuration, .regconfig⟩⟩
  Node.select ((Select.ofColumns [column]).addCriterion ⟨.binary column .eq bound .boolean⟩)

/-- The statement is the same for every configuration. -/
theorem compile_eq_of_cacheKey_eq_rowsOf :
    (rowsOf (.text "english")).BuiltIn ∧ (rowsOf .null).BuiltIn ∧
      (rowsOf (.text "english")).cacheKey = (rowsOf .null).cacheKey ∧
      ((postgresql false).compile (rowsOf (.text "english"))).1.map Compiled.form =
        ((postgresql false).compile (rowsOf .null)).1.map Compiled.form := by
  have hn : (rowsOf (.text "english")).BuiltIn := by decide
  have hm : (rowsOf .null).BuiltIn := by decide
  have hkey : (rowsOf (.text "english")).cacheKey = (rowsOf .null).cacheKey :=
    (Node.cacheKey_eq_iff hn hm).mpr rfl
  obtain ⟨hcompile, -⟩ := compile_eq_of_cacheKey_eq hn hm hkey
  exact ⟨hn, hm, hkey, (hcompile .postgresql .postgresql []).1⟩

end Compiler

end SqlClause
