import SqlClause.Proofs.Formula
import SqlClause.Proofs.Rebinding

/-!
# Putting expressions in the place of columns

Operands get their parentheses when an expression is built. A replacement builds nothing: it puts
expressions in the place of columns and leaves everything else as it is, so a column that had no
need of parentheses gives way to an expression without them. Where that expression binds looser
than the operator beside it, the operator takes part of it for its operand, and the text is not
that of the expression built from the same operands.

* `Expression.exposed`: the operands that a replacement leaves without their parentheses;
* `Expression.yields_replaceColumns`, `Expression.yields_node`: the two texts;
* `Expression.length_text_substitute`: how much shorter the one is;
* `Expression.parenthesized_replaceColumns_iff`: when no parentheses are missing;
* **`Compiler.compile_replaceColumns_eq_iff`**: replacing and building anew have one text exactly if
  no operand is exposed;
* `Compiler.replaceColumns_loses_parentheses`: a product in which one is.
-/

namespace SqlClause

/-! ## 1. Expressions and substitutions -/

/-- An expression by the steps in which it was built from references to columns. -/
inductive Expression where
  | column (c : ColumnRef)
  | op (left : Expression) (o : Operator) (right : Expression)
  | not (e : Expression)

/-- Expressions for some of the columns. -/
abbrev Substitution := ColumnRef → Option Expression

/-- What stands for a column: the expression for it, or the column itself. -/
def Substitution.apply (ρ : Substitution) (c : ColumnRef) : Expression := (ρ c).getD (.column c)

namespace Expression

/-- The tree that is built in these steps. -/
def node : Expression → Node
  | column c => ⟨.column c⟩
  | op left o right => left.node.op o right.node
  | not e => e.node.not

/-- The expression built anew, with what stands for its columns. -/
def substitute (ρ : Substitution) : Expression → Expression
  | column c => ρ.apply c
  | op left o right => op (left.substitute ρ) o (right.substitute ρ)
  | not e => not (e.substitute ρ)

/-- The operator of the last step. -/
def operator? : Expression → Option Operator
  | column _ => none
  | op _ o _ => some o
  | not _ => some .not

/-- The expression binds looser than the operator. -/
def looserThan (e : Expression) (against : Operator) : Bool :=
  e.operator?.any fun o => decide (o.precedence < against.precedence)

theorem needsGrouping_node (e : Expression) (against : Operator) :
    e.node.needsGrouping (some against) = e.looserThan against := by
  cases e <;> exact Node.needsGrouping_some ..

/-- The operand is a column, and what comes to stand for it binds looser than the operator. -/
def exposes (ρ : Substitution) (against : Operator) : Expression → Bool
  | column c => (ρ.apply c).looserThan against
  | _ => false

/-- How many operands give way to something that binds looser than the operator beside them. -/
def exposed (ρ : Substitution) : Expression → Nat
  | column _ => 0
  | op left o right =>
      (left.exposes ρ o).toNat + (right.exposes ρ o).toNat + left.exposed ρ + right.exposed ρ
  | not e => (e.exposes ρ .not).toNat + e.exposed ρ

/-- An operand is looser after the substitution if it was before, or if it is exposed. -/
theorem toNat_looserThan_substitute (ρ : Substitution) (against : Operator) (e : Expression) :
    ((e.substitute ρ).looserThan against).toNat =
      (e.looserThan against).toNat + (e.exposes ρ against).toNat := by
  cases e with
  | column c => exact (Nat.zero_add _).symm
  | _ => rfl

/-- What is not exposed is as loose as before. -/
theorem looserThan_substitute {ρ : Substitution} {against : Operator} {e : Expression}
    (h : (e.exposes ρ against).toNat = 0) :
    (e.substitute ρ).looserThan against = e.looserThan against := by
  cases e with
  | column c => exact Bool.toNat_eq_zero.mp h
  | _ => rfl

end Expression

/-! ## 2. Replacing columns -/

namespace Node

/-- The tree with answers in the place of the columns that have one. -/
def replaceColumns (answer : ColumnRef → Option Node) (n : Node) : Node :=
  Id.run (n.replace fun m => pure (m.clause.columnRef?.bind answer))

section

variable (answer : ColumnRef → Option Node)

theorem replaceColumns_column (c : ColumnRef) :
    (mk (.column c)).replaceColumns answer = (answer c).getD (mk (.column c)) := by
  have hanswer : (mk (.column c)).clause.columnRef?.bind answer = answer c := rfl
  rw [replaceColumns, replace_mk, hanswer]
  cases answer c <;> rfl

theorem replaceColumns_binary (l r : Node) (o : Operator) (type : DataType) :
    (mk (.binary l o r type)).replaceColumns answer =
      mk (.binary (l.replaceColumns answer) o (r.replaceColumns answer) type) := by
  rw [replaceColumns, replace_mk]
  rfl

theorem replaceColumns_unary (n : Node) (o : Option Operator) (modifier : Option Modifier) :
    (mk (.unary n o modifier)).replaceColumns answer =
      mk (.unary (n.replaceColumns answer) o modifier) := by
  rw [replaceColumns, replace_mk]
  rfl

/-- Parentheses stay where they are. -/
theorem replaceColumns_grouping (n : Node) :
    n.grouping.replaceColumns answer = (n.replaceColumns answer).grouping := by
  rw [replaceColumns, grouping, replace_mk]
  rfl

/-- Whether there are parentheses was decided before. -/
theorem replaceColumns_selfGroup (n : Node) (against : Operator) :
    (n.selfGroup (some against)).replaceColumns answer =
      if n.needsGrouping (some against) then (n.replaceColumns answer).grouping
      else n.replaceColumns answer := by
  rw [selfGroup]
  by_cases h : n.needsGrouping (some against) = true
  · rw [if_pos h, if_pos h, replaceColumns_grouping]
  · rw [if_neg h, if_neg h]

end

end Node

/-- The trees of the expressions for columns. -/
def Substitution.nodes (ρ : Substitution) (c : ColumnRef) : Option Node := (ρ c).map Expression.node

theorem Substitution.replaceColumns_column (ρ : Substitution) (c : ColumnRef) :
    (Node.mk (.column c)).replaceColumns ρ.nodes = (ρ.apply c).node := by
  rw [Node.replaceColumns_column, nodes, apply]
  cases ρ c <;> rfl

/-! ## 3. The text of an expression -/

namespace Expression

/-- The text, in parentheses or not. -/
def bracket (inParentheses : Bool) (text : String) : String :=
  if inParentheses then "(" ++ text ++ ")" else text

theorem length_bracket (b : Bool) (text : String) :
    (bracket b text).length = text.length + 2 * b.toNat := by
  cases b with
  | false => rfl
  | true =>
      have hopening : ("(" : String).length = 1 := rfl
      have hclosing : (")" : String).length = 1 := rfl
      simp only [bracket, if_true, String.length_append, hopening, hclosing, Bool.toNat_true]
      omega

/-- The text of an expression with given texts for its columns. The operands that were looser than
the operator beside them when the expression was built are in parentheses. -/
def textWith (leaf : ColumnRef → String) : Expression → String
  | column c => leaf c
  | op left o right =>
      bracket (left.looserThan o) (left.textWith leaf) ++ o.separator
        ++ bracket (right.looserThan o) (right.textWith leaf)
  | not e => "NOT " ++ bracket (e.looserThan .not) (e.textWith leaf)

section

variable {σ : Style} (hσ : σ.registry.RendersFormulas)

include hσ

/-- A column has the text of the column. -/
theorem yields_column (c : ColumnRef) : (Node.mk (.column c)).Yields σ (σ.column c) :=
  Layout.Yields.node hσ.1 List.mem_cons_self (.fixed (σ.column c))

/-- An operand is in parentheses if it was looser when the expression was built. -/
theorem yields_operand {answer : ColumnRef → Option Node} {e : Expression} {text : String}
    (h : (e.node.replaceColumns answer).Yields σ text) (against : Operator) :
    ((e.node.selfGroup (some against)).replaceColumns answer).Yields σ
      (bracket (e.looserThan against) text) := by
  rw [Node.replaceColumns_selfGroup, needsGrouping_node]
  cases e.looserThan against with
  | false => exact h
  | true => exact h.grouping hσ

/-- The text after a replacement: only the texts of the columns have changed. -/
theorem yields_replaceColumns_of_leaf {answer : ColumnRef → Option Node} {leaf : ColumnRef → String}
    (hleaf : ∀ c, ((Node.mk (.column c)).replaceColumns answer).Yields σ (leaf c)) :
    ∀ e : Expression, (e.node.replaceColumns answer).Yields σ (e.textWith leaf)
  | column c => hleaf c
  | op left o right => by
      have hl := yields_operand hσ (yields_replaceColumns_of_leaf hleaf left) o
      have hr := yields_operand hσ (yields_replaceColumns_of_leaf hleaf right) o
      rw [node, Node.op, Node.replaceColumns_binary]
      exact hl.binary hσ o _ hr
  | not e => by
      have he := yields_operand hσ (yields_replaceColumns_of_leaf hleaf e) .not
      rw [node, Node.not, Node.replaceColumns_unary]
      exact he.negation hσ

end

/-- Without answers nothing is replaced. -/
theorem replaceColumns_none : ∀ e : Expression, (e.node.replaceColumns fun _ => none) = e.node
  | column c => Node.replaceColumns_column _ c
  | op left o right => by
      have hl := Node.replaceColumns_selfGroup (fun _ => none) left.node o
      have hr := Node.replaceColumns_selfGroup (fun _ => none) right.node o
      rw [replaceColumns_none left] at hl
      rw [replaceColumns_none right] at hr
      rw [node, Node.op, Node.replaceColumns_binary, hl, hr]
      rfl
  | not e => by
      have he := Node.replaceColumns_selfGroup (fun _ => none) e.node .not
      rw [replaceColumns_none e] at he
      rw [node, Node.not, Node.replaceColumns_unary, he]
      rfl

/-- The text of an expression. -/
def text (σ : Style) (e : Expression) : String := e.textWith σ.column

section

variable {σ : Style} (hσ : σ.registry.RendersFormulas)

include hσ

/-- **The text of the tree that is built.** -/
theorem yields_node (e : Expression) : e.node.Yields σ (e.text σ) := by
  have hleaf : ∀ c, ((Node.mk (.column c)).replaceColumns fun _ => none).Yields σ (σ.column c) := by
    intro c
    rw [Node.replaceColumns_column]
    exact yields_column hσ c
  rw [← replaceColumns_none e]
  exact yields_replaceColumns_of_leaf hσ hleaf e

/-- **The text of the tree after a replacement** has the texts of the expressions in the place of
those of the columns, and is the same otherwise. -/
theorem yields_replaceColumns (ρ : Substitution) (e : Expression) :
    (e.node.replaceColumns ρ.nodes).Yields σ (e.textWith fun c => (ρ.apply c).text σ) := by
  refine yields_replaceColumns_of_leaf hσ (fun c => ?_) e
  rw [ρ.replaceColumns_column]
  exact yields_node hσ (ρ.apply c)

end

/-- **Every exposed operand costs the text one pair of parentheses.** -/
theorem length_text_substitute (σ : Style) (ρ : Substitution) : ∀ e : Expression,
    ((e.substitute ρ).text σ).length =
      (e.textWith fun c => (ρ.apply c).text σ).length + 2 * e.exposed ρ
  | column _ => rfl
  | op left o right => by
      have hl := length_text_substitute σ ρ left
      have hr := length_text_substitute σ ρ right
      have hleft := toNat_looserThan_substitute ρ o left
      have hright := toNat_looserThan_substitute ρ o right
      simp only [text, substitute, textWith, exposed, String.length_append, length_bracket] at *
      omega
  | not e => by
      have he := length_text_substitute σ ρ e
      have hlooser := toNat_looserThan_substitute ρ .not e
      simp only [text, substitute, textWith, exposed, String.length_append, length_bracket] at *
      omega

/-- Without exposed operands the text is the one of the expression built anew. -/
theorem text_substitute_of_exposed_eq_zero (σ : Style) (ρ : Substitution) : ∀ e : Expression,
    e.exposed ρ = 0 → (e.substitute ρ).text σ = e.textWith fun c => (ρ.apply c).text σ
  | column _, _ => rfl
  | op left o right, h => by
      simp only [exposed, Nat.add_eq_zero_iff] at h
      obtain ⟨⟨⟨hleft, hright⟩, hl⟩, hr⟩ := h
      have hl := text_substitute_of_exposed_eq_zero σ ρ left hl
      have hr := text_substitute_of_exposed_eq_zero σ ρ right hr
      have hleft' := looserThan_substitute hleft
      have hright' := looserThan_substitute hright
      rw [text] at *
      rw [substitute, textWith, textWith, hl, hr, hleft', hright']
  | not e, h => by
      simp only [exposed, Nat.add_eq_zero_iff] at h
      obtain ⟨hlooser, he⟩ := h
      have he := text_substitute_of_exposed_eq_zero σ ρ e he
      have hlooser' := looserThan_substitute hlooser
      rw [text] at *
      rw [substitute, textWith, textWith, he, hlooser']

end Expression

/-! ## 4. Operands without their parentheses -/

/-- No operand of the clause needs parentheses that it does not have. -/
def Clause.keepsPrecedence : Clause Node → Bool
  | binary l o r _ => !l.needsGrouping (some o) && !r.needsGrouping (some o)
  | unary n (some .not) _ => !n.needsGrouping (some .not)
  | _ => true

namespace Node

/-- No operator of the tree, and no negation, has an operand that needs parentheses beside it and
does not have them. -/
def Parenthesized (n : Node) : Prop := ∀ m ∈ n.preorder, m.clause.keepsPrecedence = true

instance (n : Node) : Decidable n.Parenthesized :=
  inferInstanceAs (Decidable (∀ m ∈ n.preorder, m.clause.keepsPrecedence = true))

theorem parenthesized_mk {c : Clause Node} :
    (mk c).Parenthesized ↔ c.keepsPrecedence = true ∧ ∀ n ∈ c.parts, n.Parenthesized :=
  forall_preorder_mk

theorem parenthesized_column (c : ColumnRef) : (mk (.column c)).Parenthesized :=
  parenthesized_mk.mpr ⟨rfl, nofun⟩

theorem parenthesized_grouping {n : Node} : n.grouping.Parenthesized ↔ n.Parenthesized := by
  have hparts : (∀ m ∈ (Clause.grouping n).parts, m.Parenthesized) ↔ n.Parenthesized :=
    List.forall_mem_singleton
  rw [grouping, parenthesized_mk, hparts]
  exact and_iff_right rfl

theorem parenthesized_binary {l r : Node} {o : Operator} {type : DataType} :
    (mk (.binary l o r type)).Parenthesized ↔
      (l.needsGrouping (some o) = false ∧ l.Parenthesized) ∧
        r.needsGrouping (some o) = false ∧ r.Parenthesized := by
  have hparts : (∀ m ∈ (Clause.binary l o r type).parts, m.Parenthesized) ↔
      l.Parenthesized ∧ r.Parenthesized :=
    List.forall_mem_cons.trans (and_congr_right' List.forall_mem_singleton)
  rw [parenthesized_mk, hparts, Clause.keepsPrecedence, Bool.and_eq_true, Bool.not_eq_true',
    Bool.not_eq_true']
  tauto

theorem parenthesized_negation {n : Node} :
    (mk (.unary n (some .not) none)).Parenthesized ↔
      n.needsGrouping (some .not) = false ∧ n.Parenthesized := by
  have hparts : (∀ m ∈ (Clause.unary n (some .not) none).parts, m.Parenthesized) ↔
      n.Parenthesized := List.forall_mem_singleton
  rw [parenthesized_mk, hparts, Clause.keepsPrecedence, Bool.not_eq_true']

/-- A node has no need of parentheses where it was given those that it needs. -/
theorem parenthesized_selfGroup {n : Node} {against : Operator} :
    ((n.selfGroup (some against)).needsGrouping (some against) = false ∧
      (n.selfGroup (some against)).Parenthesized) ↔ n.Parenthesized := by
  rw [selfGroup]
  by_cases h : n.needsGrouping (some against) = true
  · rw [if_pos h, parenthesized_grouping]
    exact and_iff_right (needsGrouping_some _ _)
  · rw [if_neg h]
    exact and_iff_right (Bool.eq_false_iff.mpr h)

end Node

namespace Expression

/-- **What is built has all its parentheses.** -/
theorem parenthesized_node : ∀ e : Expression, e.node.Parenthesized
  | column c => Node.parenthesized_column c
  | op left _ right =>
      Node.parenthesized_binary.mpr
        ⟨Node.parenthesized_selfGroup.mpr (parenthesized_node left),
          Node.parenthesized_selfGroup.mpr (parenthesized_node right)⟩
  | not e =>
      Node.parenthesized_negation.mpr (Node.parenthesized_selfGroup.mpr (parenthesized_node e))

variable {ρ : Substitution}

/-- After a replacement a node needs the parentheses that the expression built anew would get. -/
theorem needsGrouping_replaceColumns (e : Expression) (against : Operator) :
    (e.node.replaceColumns ρ.nodes).needsGrouping (some against) =
      (e.substitute ρ).looserThan against := by
  cases e with
  | column c =>
      rw [node, ρ.replaceColumns_column, needsGrouping_node]
      rfl
  | op left o right =>
      rw [node, Node.op, Node.replaceColumns_binary]
      exact Node.needsGrouping_some ..
  | not e =>
      rw [node, Node.not, Node.replaceColumns_unary]
      exact Node.needsGrouping_some ..

/-- After a replacement an operand needs parentheses if it is exposed. -/
theorem parenthesized_replaceColumns_operand {e : Expression} {against : Operator} :
    (((e.node.selfGroup (some against)).replaceColumns ρ.nodes).needsGrouping (some against) =
        false ∧ ((e.node.selfGroup (some against)).replaceColumns ρ.nodes).Parenthesized) ↔
      (e.exposes ρ against).toNat = 0 ∧ (e.node.replaceColumns ρ.nodes).Parenthesized := by
  have hsum := toNat_looserThan_substitute ρ against e
  rw [Node.replaceColumns_selfGroup, needsGrouping_node]
  cases h : e.looserThan against with
  | true =>
      have hbound := Bool.toNat_le ((e.substitute ρ).looserThan against)
      have hkept : (e.exposes ρ against).toNat = 0 := by
        rw [h, Bool.toNat_true] at hsum
        omega
      have hneeds : (e.node.replaceColumns ρ.nodes).grouping.needsGrouping (some against) =
          false := Node.needsGrouping_some ..
      rw [if_pos rfl, Node.parenthesized_grouping, hneeds, hkept]
      exact and_congr_left' (by simp)
  | false =>
      rw [h, Bool.toNat_false, Nat.zero_add] at hsum
      rw [if_neg Bool.false_ne_true, needsGrouping_replaceColumns, ← hsum, Bool.toNat_eq_zero]

/-- **After a replacement no parentheses are missing if and only if no operand is exposed.** -/
theorem parenthesized_replaceColumns_iff : ∀ e : Expression,
    (e.node.replaceColumns ρ.nodes).Parenthesized ↔ e.exposed ρ = 0
  | column c => by
      rw [node, ρ.replaceColumns_column]
      exact iff_of_true (parenthesized_node _) rfl
  | op left o right => by
      rw [node, Node.op, Node.replaceColumns_binary, Node.parenthesized_binary,
        parenthesized_replaceColumns_operand, parenthesized_replaceColumns_operand,
        parenthesized_replaceColumns_iff left, parenthesized_replaceColumns_iff right, exposed]
      omega
  | not e => by
      rw [node, Node.not, Node.replaceColumns_unary, Node.parenthesized_negation,
        parenthesized_replaceColumns_operand, parenthesized_replaceColumns_iff e, exposed]
      omega

end Expression

/-! ## 5. Replacing and building anew -/

namespace Compiler

/-- **Replacing columns and building the expression anew compile to one text if and only if no
operand is exposed.** The text after a replacement lacks one pair of parentheses for every operand
that gives way to something looser than the operator beside it. The expression that is built anew
always has all its parentheses, and the tree after a replacement has them if and only if no operand
is exposed. -/
theorem compile_replaceColumns_eq_iff (s : Settings)
    (hs : s.registry = .core ∨ s.registry = .postgresql) (collected : List Value)
    (ρ : Substitution) (e : Expression) :
    ∃ replaced rebuilt,
      ((having s collected).compile (e.node.replaceColumns ρ.nodes)).1 = .ok ⟨replaced, []⟩ ∧
      ((having s collected).compile (e.substitute ρ).node).1 = .ok ⟨rebuilt, []⟩ ∧
      rebuilt.length = replaced.length + 2 * e.exposed ρ ∧
      (replaced = rebuilt ↔ e.exposed ρ = 0) ∧
      ((e.node.replaceColumns ρ.nodes).Parenthesized ↔ e.exposed ρ = 0) ∧
      (e.substitute ρ).node.Parenthesized := by
  have hrenders : (s.style false).registry.RendersFormulas := Registry.rendersFormulas_of hs
  have hlength := e.length_text_substitute (s.style false) ρ
  refine ⟨_, _, compile_of_yields (Expression.yields_replaceColumns hrenders ρ e) collected,
    compile_of_yields (Expression.yields_node hrenders (e.substitute ρ)) collected, hlength,
    ⟨fun htexts => ?_, fun hnone => ?_⟩, e.parenthesized_replaceColumns_iff,
    Expression.parenthesized_node _⟩
  · rw [← htexts] at hlength
    omega
  · exact (Expression.text_substitute_of_exposed_eq_zero (s.style false) ρ e hnone).symm

end Compiler

namespace Expression

/-- A column of no particular table. -/
def name (s : String) : Expression := column ⟨s, none, .null, false⟩

/-- A product of two columns. -/
def product : Expression := op (name "a") .mul (name "b")

/-- A sum for the first of them. -/
def sumForFirst : Substitution := fun c =>
  if c.name = "a" then some (op (name "x") .add (name "y")) else none

end Expression

namespace Compiler

open Expression

/-- The sum needs its parentheses in the product, and gets them only if the product is built. -/
theorem compile_replaceColumns_product :
    (⟨.generic, .core, false⟩ : Settings).registry = .core ∧ product.exposed sumForFirst = 1 ∧
    ∃ replaced rebuilt,
      ((having ⟨.generic, .core, false⟩ []).compile
        (product.node.replaceColumns sumForFirst.nodes)).1 = .ok ⟨replaced, []⟩ ∧
      ((having ⟨.generic, .core, false⟩ []).compile (product.substitute sumForFirst).node).1 =
        .ok ⟨rebuilt, []⟩ ∧
      rebuilt.length = replaced.length + 2 ∧ replaced ≠ rebuilt := by
  have hexposed : product.exposed sumForFirst = 1 := by decide
  obtain ⟨replaced, rebuilt, hreplaced, hrebuilt, hlength, hsame, -, -⟩ :=
    compile_replaceColumns_eq_iff ⟨.generic, .core, false⟩ (.inl rfl) [] sumForFirst product
  rw [hexposed] at hlength hsame
  exact ⟨rfl, hexposed, replaced, rebuilt, hreplaced, hrebuilt, hlength,
    fun h => absurd (hsame.mp h) Nat.one_ne_zero⟩

/-- **A replacement can change what belongs together**: the factor of the text is `y` alone. -/
theorem replaceColumns_loses_parentheses :
    ((having ⟨.generic, .core, false⟩ []).compile
        (product.node.replaceColumns sumForFirst.nodes)).1 = .ok ⟨"x + y * b", []⟩ ∧
      ((having ⟨.generic, .core, false⟩ []).compile (product.substitute sumForFirst).node).1 =
        .ok ⟨"(x + y) * b", []⟩ ∧
      ¬ (product.node.replaceColumns sumForFirst.nodes).Parenthesized := by
  decide

end Compiler

end SqlClause
