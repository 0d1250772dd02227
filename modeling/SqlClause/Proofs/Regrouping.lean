import SqlClause.Proofs.Precedence

/-!
# Operands of equal precedence

An operand is put in parentheses if it binds looser than the operator beside it. At equal
precedence neither operand is, on whichever side it stands, so two nested operators of one
precedence have one text, whichever of them was applied first. The text is read from left to right,
so what was built from right to left is lost: a difference taken from `a` is written as if `b` and
`c` were taken from `a` one after the other.

* `Node.selfGroup_congr`: only the precedence of an operator decides on parentheses beside it;
* **`Compiler.compile_op_op`**: nested operators of one precedence have one text;
* `Compiler.sub_sub_misread`: the text of `a - (b - c)` is read as another number.
-/

namespace SqlClause

/-! ## 1. Parentheses beside operators of one precedence -/

theorem Operator.eq_comma_iff {o : Operator} : o = .comma ↔ o.precedence = 0 := by
  cases o <;> decide

/-- Operators of one precedence ask the same parentheses of a clause. -/
theorem Clause.needsGrouping_congr {o p : Operator} (h : o.precedence = p.precedence) :
    Clause.needsGrouping o = Clause.needsGrouping p := by
  funext c
  cases c with
  | text sql =>
      have hcomma : (o = .comma) = (p = .comma) := by
        rw [Operator.eq_comma_iff, Operator.eq_comma_iff, h]
      simp only [needsGrouping, bne, beq_eq_decide, hcomma]
  | unary element own modifier =>
      rcases own with _ | _ <;> rcases modifier with _ | _ <;> simp only [needsGrouping, h]
  | _ => simp only [needsGrouping, h]

namespace Node

theorem needsGrouping_congr {o p : Operator} (h : o.precedence = p.precedence) (n : Node) :
    n.needsGrouping (some o) = n.needsGrouping (some p) := by
  rw [needsGrouping, needsGrouping, Clause.needsGrouping_congr h]

/-- **Only the precedence of an operator decides on parentheses beside it.** -/
theorem selfGroup_congr {o p : Operator} (h : o.precedence = p.precedence) (n : Node) :
    n.selfGroup (some o) = n.selfGroup (some p) := by
  rw [selfGroup, selfGroup, needsGrouping_congr h]

/-- Beside an operator of its own precedence, or of a lower one, two joined nodes stand as they
are. -/
theorem selfGroup_op {o p : Operator} (h : p.precedence ≤ o.precedence) (l r : Node) :
    (l.op o r).selfGroup (some p) = l.op o r := by
  have hneeds : (l.op o r).needsGrouping (some p) = false :=
    (needsGrouping_some _ p).trans (decide_eq_false (Nat.not_lt.mpr h))
  rw [selfGroup, hneeds]
  rfl

/-! ## 2. Nested operators -/

/-- The operands of an operator are rendered from left to right. -/
theorem render_binary {s : Settings} (h : s.registry.element? "binary" = some .binary)
    (l r : Node) (o : Operator) (type : DataType) :
    (mk (.binary l o r type)).render s = do
      return (← l.render s) ++ o.separator ++ (← r.render s) := by
  have hrule : (mk (.binary l o r type)).render s = _ := render_of_rule h
  exact hrule

/-- Without the rule nothing is rendered, whatever the operands are. -/
theorem render_binary_of_no_rule {s : Settings} (h : s.registry.element? "binary" ≠ some .binary)
    (l r l' r' : Node) (o o' : Operator) (type type' : DataType) :
    (mk (.binary l o r type)).render s = (mk (.binary l' o' r' type')).render s := by
  funext p
  have hsame : (s.style p.inDdl).ruleFor (Clause.binary l' o' r' type') =
      (s.style p.inDdl).ruleFor (Clause.binary l o r type) := rfl
  cases hrule : (s.style p.inDdl).ruleFor (Clause.binary l o r type) with
  | error e =>
      rw [render_apply, render_apply, Style.layoutFor, Style.layoutFor, hsame, hrule]
      rfl
  | ok rule =>
      unfold Style.ruleFor at hrule
      split at hrule
      · cases hrule
      · rename_i found hfound
        split at hrule
        · rename_i hmem
          obtain rfl := List.mem_singleton.mp hmem
          exact absurd hfound h
        · cases hrule

/-- **Nested operators of one precedence are rendered alike**, whichever was applied first. -/
theorem render_op_op {o p : Operator} (h : o.precedence = p.precedence) (l x y : Node) :
    (l.op o (x.op p y)).render = ((l.op o x).op p y).render := by
  funext s
  show (mk (.binary _ o ((x.op p y).selfGroup (some o)) _)).render s =
    (mk (.binary ((l.op o x).selfGroup (some p)) p _ _)).render s
  rw [selfGroup_op (Nat.le_of_eq h.symm), selfGroup_op (Nat.le_of_eq h)]
  by_cases hrule : s.registry.element? "binary" = some .binary
  · have hright : (x.op p y).render s = do
        return (← (x.selfGroup (some p)).render s) ++ p.separator
          ++ (← (y.selfGroup (some p)).render s) := render_binary hrule ..
    have hleft : (l.op o x).render s = do
        return (← (l.selfGroup (some o)).render s) ++ o.separator
          ++ (← (x.selfGroup (some o)).render s) := render_binary hrule ..
    rw [render_binary hrule, render_binary hrule, hright, hleft, selfGroup_congr h x]
    simp only [bind_assoc, pure_bind, String.append_assoc]
  · exact render_binary_of_no_rule hrule ..

end Node

/-! ## 3. What the text is read as -/

namespace Formula

/-- The number that an operator makes of two numbers, if it makes one. A comparison makes 1 or 0. -/
def combine : Operator → Int → Int → Option Int
  | .add, m, n => some (m + n)
  | .sub, m, n => some (m - n)
  | .mul, m, n => some (m * n)
  | .div, m, n => if n = 0 then none else some (m.tdiv n)
  | .mod, m, n => if n = 0 then none else some (m.tmod n)
  | .eq, m, n => some (if m = n then 1 else 0)
  | .notEq, m, n => some (if m = n then 0 else 1)
  | .lt, m, n => some (if m < n then 1 else 0)
  | .ltEq, m, n => some (if m ≤ n then 1 else 0)
  | .gt, m, n => some (if n < m then 1 else 0)
  | .gtEq, m, n => some (if n ≤ m then 1 else 0)
  | .and, _, _ | .or, _, _ | .not, _, _ | .concat, _, _ | .like, _, _ | .textMatch, _, _
  | .comma, _, _ => none

/-- The number that a formula of arithmetic stands for, if it stands for one, given the numbers in
the columns. -/
def number (columns : String → Int) : Formula → Option Int
  | column name => some (columns name)
  | op left o right => do combine o (← left.number columns) (← right.number columns)
  | not _ => none

/-- The text of nested operators of one precedence is read as if the first had been applied
first. -/
theorem read_op_op {o p : Operator} (h : o.precedence = p.precedence) {f g k : Formula}
    (hplain : (op (op f o g) p k).Plain) (hgraded : (op (op f o g) p k).Graded) :
    read (op f o (op g p k)).text = some (op (op f o g) p k) := by
  have hg : g.looserThan o = g.looserThan p := by simp only [looserThan, h]
  have hinner : (op g p k).looserThan o = false := by simp [looserThan, operator?, h]
  have houter : (op f o g).looserThan p = false := by simp [looserThan, operator?, h]
  have htokens : (op f o (op g p k)).tokens = (op (op f o g) p k).tokens := by
    simp [tokens, hg, hinner, houter, Token.bracket]
  rw [text, htokens]
  exact read_text hplain hgraded

end Formula

namespace Compiler

/-- **Nested operators of one precedence have one text**, the same for `l o (x p y)` as for
`(l o x) p y`, whatever the operands, the dialect and the registry are. As far as the operands are
formulas, it is read as the second. -/
theorem compile_op_op {o p : Operator} (h : o.precedence = p.precedence) :
    (∀ (c : Compiler) (l x y : Node),
      c.compile (l.op o (x.op p y)) = c.compile ((l.op o x).op p y)) ∧
    ∀ f g k : Formula, (Formula.op (.op f o g) p k).Plain → (Formula.op (.op f o g) p k).Graded →
      Formula.read (Formula.op f o (.op g p k)).text = some (.op (.op f o g) p k) := by
  refine ⟨fun c l x y => ?_, fun f g k hplain hgraded => Formula.read_op_op h hplain hgraded⟩
  exact compile_congr (congrFun (Node.render_op_op h l x y) c.settings)

/-- The difference of `a` and the difference of `b` and `c`. -/
def nestedDifference : Formula := .op (.column "a") .sub (.op (.column "b") .sub (.column "c"))

/-- The difference of `a` and `b`, and then of that and `c`. -/
def leftDifference : Formula := .op (.op (.column "a") .sub (.column "b")) .sub (.column "c")

theorem compile_op_op_sub :
    Operator.sub.precedence = Operator.sub.precedence ∧
      (generic false).compile nestedDifference.node = (generic false).compile leftDifference.node ∧
      Formula.read nestedDifference.text = some leftDifference := by
  obtain ⟨hcompile, hread⟩ := compile_op_op (o := .sub) (p := .sub) rfl
  exact ⟨rfl, hcompile _ (.column "a") (.column "b") (.column "c"),
    hread (.column "a") (.column "b") (.column "c") (by decide) (by decide)⟩

/-- **The text of `a - (b - c)` is read as another number**: it is the text of `a - b - c`, though
the trees are not the same, and where all columns are 1, it is read as -1 and not as 1. -/
theorem sub_sub_misread :
    ((generic false).compile nestedDifference.node).1 = .ok ⟨"a - b - c", []⟩ ∧
      ((generic false).compile leftDifference.node).1 = .ok ⟨"a - b - c", []⟩ ∧
      nestedDifference.node.agrees leftDifference.node = false ∧
      (Formula.read "a - b - c").bind (Formula.number fun _ => 1) = some (-1) ∧
      nestedDifference.number (fun _ => 1) = some 1 := by
  refine ⟨rfl, rfl, ?_, ?_, ?_⟩ <;> decide

end Compiler

end SqlClause
