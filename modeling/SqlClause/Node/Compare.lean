import SqlClause.Node.Basic

/-!
# Comparison of trees

Two trees agree when they are of one kind at every node and their attributes agree one by one:
scalars are equal, bound values are equal as values (`Value.equals`, so a NaN agrees with nothing),
and parts agree. For the recursion, the parts of the first tree stand as the tests that they are.

* `Node.agrees_mk`: agreement of two nodes, from the agreement of their parts.
-/

namespace SqlClause

/-- Every test holds of the item at its place, and there are as many items as tests. -/
def allAgree {α : Type} : List (α → Bool) → List α → Bool
  | [], [] => true
  | test :: tests, a :: as => test a && allAgree tests as
  | _, _ => false

namespace Attribute

variable {α : Type}

/-- The attributes agree, the parts of the first being tests for the parts of the second. -/
def agrees : Attribute (α → Bool) → Attribute α → Bool
  | element test, element part => test part
  | optionalElement (some test), optionalElement (some part) => test part
  | optionalElement none, optionalElement none => true
  | elementList tests, elementList parts => allAgree tests parts
  | type t, type u => t == u
  | string s, string t => s == t
  | boolean b, boolean c => b == c
  | integer n, integer m => n == m
  | stringMap m, stringMap n => m == n
  | value v, value w => v.equals w
  | _, _ => false

end Attribute

/-- The named attributes agree one by one. -/
def attributesAgree {α : Type} :
    List (String × Attribute (α → Bool)) → List (String × Attribute α) → Bool
  | [], [] => true
  | a :: as, b :: bs => a.1 == b.1 && a.2.agrees b.2 && attributesAgree as bs
  | _, _ => false

namespace Clause

/-- The clauses are of one kind and their attributes agree. -/
def agrees {α : Type} (a : Clause (α → Bool)) (b : Clause α) : Bool :=
  a.sameKind b && attributesAgree a.attributes b.attributes

end Clause

namespace Node

/-- The trees agree, node by node and attribute by attribute. -/
def agrees : Node → Node → Bool := fold fun _ c n => c.agrees n.clause

theorem agrees_mk (c : Clause Node) (n : Node) :
    (mk c).agrees n = (c.map agrees).agrees n.clause := by
  rw [agrees, fold_mk]

end Node

end SqlClause
