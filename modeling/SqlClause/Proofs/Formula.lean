import SqlClause.Proofs.Template

/-!
# Expressions of columns and operators

A `Formula` says how an expression was built: from columns, by joining two expressions with an
operator, and by negation. The tree that is built (`Formula.node`) has parentheses as well, around
every operand whose own operator binds looser than the one beside it. This module says what is
written for a formula, token by token, and that the renderer writes just that.

* `Formula.needsGrouping_node`: which operands get parentheses;
* `Node.Yields`: the text of a tree that binds nothing, and what it becomes in parentheses, beside
  an operator or negated;
* **`Formula.yields_text`**: the text of the tree is spelled by the tokens of the formula;
* `Compiler.compile_of_yields`: what such a tree compiles to.
-/

namespace SqlClause

/-! ## 1. Formulas and their trees -/

/-- An expression by the steps in which it was built. -/
inductive Formula where
  | column (name : String)
  | op (left : Formula) (o : Operator) (right : Formula)
  | not (f : Formula)
deriving DecidableEq, Repr

namespace Formula

/-- The tree that is built in these steps. -/
def node : Formula → Node
  | column name => .column name
  | op left o right => left.node.op o right.node
  | not f => f.node.not

/-- The operator of the last step. -/
def operator? : Formula → Option Operator
  | column _ => none
  | op _ o _ => some o
  | not _ => some .not

/-- The formula binds looser than the operator, so that beside it it stands in parentheses. -/
def looserThan (f : Formula) (against : Operator) : Bool :=
  f.operator?.any fun o => decide (o.precedence < against.precedence)

/-- **The parentheses of the tree are around what binds looser than the operator beside it.** -/
theorem needsGrouping_node (f : Formula) (against : Operator) :
    f.node.needsGrouping (some against) = f.looserThan against := by
  cases f <;> exact Node.needsGrouping_some ..

theorem selfGroup_node (f : Formula) (against : Operator) :
    f.node.selfGroup (some against) =
      if f.looserThan against then f.node.grouping else f.node := by
  rw [Node.selfGroup, needsGrouping_node]

end Formula

/-! ## 2. Tokens -/

/-- What an expression is written with. -/
inductive Token where
  | name (s : String)
  | operator (o : Operator)
  | opening
  | closing
deriving DecidableEq, Repr

namespace Token

/-- The token in a text, with the blanks that go with it. -/
def spelling : Token → String
  | name s => s
  | operator .not => "NOT "
  | operator o => o.separator
  | opening => "("
  | closing => ")"

/-- The text of tokens. -/
def spell (ts : List Token) : String := String.join (ts.map spelling)

@[simp] theorem spell_nil : spell [] = "" := rfl

@[simp] theorem spell_cons (t : Token) (ts : List Token) :
    spell (t :: ts) = t.spelling ++ spell ts := String.join_cons

@[simp] theorem spell_append (ts us : List Token) : spell (ts ++ us) = spell ts ++ spell us := by
  rw [spell, List.map_append, String.join_append]
  rfl

theorem spelling_operator {o : Operator} (h : o ≠ .not) : (operator o).spelling = o.separator := by
  cases o <;> first | rfl | exact absurd rfl h

/-- The tokens, in parentheses or not. -/
def bracket (inParentheses : Bool) (ts : List Token) : List Token :=
  if inParentheses then opening :: ts ++ [closing] else ts

end Token

namespace Formula

/-- The tokens of a formula, with parentheses where the operators ask for them. -/
def tokens : Formula → List Token
  | column name => [.name name]
  | op left o right =>
      Token.bracket (left.looserThan o) left.tokens ++ .operator o ::
        Token.bracket (right.looserThan o) right.tokens
  | not f => .operator .not :: Token.bracket (f.looserThan .not) f.tokens

/-- The text of a formula. -/
def text (f : Formula) : String := Token.spell f.tokens

/-- The name of every column can stand as it is, and no operator between two operands is a comma
or a negation. -/
def Plain : Formula → Prop
  | column name => requiresQuotes name = false
  | op left o right => left.Plain ∧ right.Plain ∧ o ≠ .comma ∧ o ≠ .not
  | not f => f.Plain

instance decidablePlain : DecidablePred Plain
  | column name => inferInstanceAs (Decidable (requiresQuotes name = false))
  | op left o right =>
      have := decidablePlain left
      have := decidablePlain right
      inferInstanceAs (Decidable (left.Plain ∧ right.Plain ∧ o ≠ .comma ∧ o ≠ .not))
  | not f => decidablePlain f

end Formula

/-! ## 3. Texts without values -/

/-- One layout behind another has one template behind the other. -/
theorem Layout.template_append (l m : Layout (Except Error Template)) :
    template (l ++ m) = do return (← template l) ++ (← template m) := by
  induction l with
  | nil => simp [template]
  | cons segment l ih =>
      cases segment with
      | piece p => simp [template, ih]
      | part t =>
          rw [List.cons_append, template, template, ih]
          rcases t with _ | t <;> rcases template l with _ | u <;> rcases template m with _ | v
          case ok.ok.ok => exact congrArg Except.ok (List.append_assoc t u v).symm
          all_goals rfl

/-- The layout has the text, in which no value has a place. -/
def Layout.Yields (σ : Style) (l : Layout Node) (text : String) : Prop :=
  ∃ t : Template, (l.map (Node.template σ)).template = .ok t ∧ t.values = [] ∧
    ∀ f k, t.fill f k = text

/-- The tree has the text, in which no value has a place. -/
def Node.Yields (σ : Style) (n : Node) (text : String) : Prop :=
  ∃ t : Template, n.template σ = .ok t ∧ t.values = [] ∧ ∀ f k, t.fill f k = text

namespace Layout.Yields

variable {σ : Style}

theorem fixed (s : String) : Layout.Yields σ (Layout.fixed s) s :=
  ⟨[.text s], rfl, rfl, fun _ _ => String.append_empty⟩

theorem part {n : Node} {text : String} (h : n.Yields σ text) :
    Layout.Yields σ (Layout.part n) text := by
  obtain ⟨t, htemplate, hvalues, hfill⟩ := h
  refine ⟨t, ?_, hvalues, hfill⟩
  simp [Layout.part, Layout.map, Layout.template, htemplate]

theorem append {l m : Layout Node} {text later : String} (hl : Layout.Yields σ l text)
    (hm : Layout.Yields σ m later) : Layout.Yields σ (l ++ m) (text ++ later) := by
  obtain ⟨t, ht, htvalues, htfill⟩ := hl
  obtain ⟨u, hu, huvalues, hufill⟩ := hm
  refine ⟨t ++ u, ?_, ?_, fun f k => ?_⟩
  · rw [map_append, template_append, ht, hu]
    rfl
  · rw [Template.values_append, htvalues, huvalues, List.append_nil]
  · rw [Template.fill_append, htfill, hufill]

/-- A node has the text of the layout that the rule for its clause makes. -/
theorem node {c : Clause Node} {rule : ElementRule} {text : String}
    (hrule : σ.registry.element? c.tag = some rule) (hmem : rule ∈ c.rules)
    (h : Layout.Yields σ (c.layout σ (rule == .castingBind) (Node.mk c).sources) text) :
    (Node.mk c).Yields σ text := by
  obtain ⟨t, htemplate, hvalues, hfill⟩ := h
  refine ⟨t, ?_, hvalues, hfill⟩
  rw [Node.template_mk, Style.layoutFor_of_rule hrule hmem]
  exact htemplate

end Layout.Yields

/-- What a tree yields is what compilers make of it. -/
theorem Compiler.compile_of_yields {s : Settings} {n : Node} {text : String}
    (h : n.Yields (s.style false) text) (collected : List Value) :
    ((having s collected).compile n).1 = .ok ⟨text, []⟩ := by
  obtain ⟨t, htemplate, hvalues, hfill⟩ := h
  rw [compile_of_template s collected n htemplate, hvalues, hfill, ite_self]

/-! ## 4. The text of a formula -/

/-- The registry has the rules for columns, operators and parentheses. -/
def Registry.RendersFormulas (r : Registry) : Prop :=
  r.element? "column" = some .column ∧ r.element? "binary" = some .binary ∧
    r.element? "unary" = some .unary ∧ r.element? "grouping" = some .grouping

theorem Registry.rendersFormulas_core : core.RendersFormulas := by
  refine ⟨?_, ?_, ?_, ?_⟩ <;> decide

theorem Registry.rendersFormulas_postgresql : postgresql.RendersFormulas := by
  refine ⟨?_, ?_, ?_, ?_⟩ <;> decide

theorem Registry.rendersFormulas_of {r : Registry} (h : r = core ∨ r = postgresql) :
    r.RendersFormulas := by
  rcases h with rfl | rfl
  · exact rendersFormulas_core
  · exact rendersFormulas_postgresql

section

variable {σ : Style} (hσ : σ.registry.RendersFormulas)

include hσ

namespace Node.Yields

/-- The text of a node in parentheses. -/
theorem grouping {n : Node} {text : String} (h : n.Yields σ text) :
    n.grouping.Yields σ ("(" ++ text ++ ")") := by
  obtain ⟨-, -, -, hgrouping⟩ := hσ
  have hlayout := ((Layout.Yields.fixed "(").append (.part h)).append (.fixed (σ := σ) ")")
  exact Layout.Yields.node hgrouping List.mem_cons_self hlayout

/-- The text of two joined nodes. -/
theorem binary {l r : Node} {left right : String} (o : Operator) (type : DataType)
    (hl : l.Yields σ left) (hr : r.Yields σ right) :
    (Node.mk (.binary l o r type)).Yields σ (left ++ o.separator ++ right) := by
  have hlayout := ((Layout.Yields.part hl).append (.fixed o.separator)).append (.part hr)
  exact Layout.Yields.node hσ.2.1 List.mem_cons_self hlayout

/-- The text of a negated node. -/
theorem negation {n : Node} {text : String} (h : n.Yields σ text) :
    (Node.mk (.unary n (some .not) none)).Yields σ ("NOT " ++ text) := by
  have hlayout := ((Layout.Yields.fixed "NOT ").append (.part h)).append (.fixed "")
  rw [String.append_empty] at hlayout
  exact Layout.Yields.node hσ.2.2.1 List.mem_cons_self hlayout

end Node.Yields

namespace Formula

/-- An operand has the text of its tokens, in parentheses if it is looser than the operator. -/
theorem yields_selfGroup {f : Formula} (h : f.node.Yields σ f.text) (against : Operator) :
    (f.node.selfGroup (some against)).Yields σ
      (Token.spell (Token.bracket (f.looserThan against) f.tokens)) := by
  rw [selfGroup_node]
  cases f.looserThan against with
  | false => exact h
  | true =>
      have htext : Token.spell (Token.bracket true f.tokens) = "(" ++ f.text ++ ")" := by
        simp [Token.bracket, text, Token.spelling, String.append_assoc]
      rw [htext]
      exact h.grouping hσ

/-- **The text of the tree is spelled by the tokens of the formula.** -/
theorem yields_text (hquote : ∀ name, requiresQuotes name = false → σ.quote name = name) :
    ∀ f : Formula, f.Plain → f.node.Yields σ f.text
  | column name, hf => by
      have hname : σ.column ⟨name, none, .null, false⟩ = name := hquote name hf
      have htext : (column name).text = name := by
        simp [text, tokens, Token.spelling]
      have hlayout : Layout.Yields σ (.fixed (σ.column ⟨name, none, .null, false⟩)) name := by
        rw [hname]
        exact .fixed name
      rw [htext]
      exact Layout.Yields.node hσ.1 List.mem_cons_self hlayout
  | op left o right, hf => by
      obtain ⟨hleft, hright, -, hnot⟩ := hf
      have hl := yields_selfGroup hσ (yields_text hquote left hleft) o
      have hr := yields_selfGroup hσ (yields_text hquote right hright) o
      have htext : (op left o right).text =
          Token.spell (Token.bracket (left.looserThan o) left.tokens) ++ o.separator
            ++ Token.spell (Token.bracket (right.looserThan o) right.tokens) := by
        simp [text, tokens, Token.spelling_operator hnot, String.append_assoc]
      rw [htext]
      exact hl.binary hσ o _ hr
  | not f, hf => by
      have he := yields_selfGroup hσ (yields_text hquote f hf) .not
      have htext : (not f).text =
          "NOT " ++ Token.spell (Token.bracket (f.looserThan .not) f.tokens) := by
        simp [text, tokens, Token.spelling]
      rw [htext]
      exact he.negation hσ

end Formula

end

end SqlClause
