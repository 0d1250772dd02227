/-!
# Binary floating-point numbers, by their bits

A `Binary64` is the 64-bit word of a number in the IEEE 754 double format. Two words are the same
datum when their bits agree; two numbers compare equal by `equals`, where a NaN differs from
everything and the two zeros agree. The fields are read off the word by plain arithmetic.

* `equals_self_iff`: a number equals itself exactly when it is no NaN.
-/

namespace SqlClause

/-- A double-precision number, held as its word: sign, eleven exponent bits, 52 fraction bits. -/
structure Binary64 where
  bits : UInt64
deriving DecidableEq, Inhabited

namespace Binary64

/-! ## 1. The fields of the word -/

/-- The sign bit is set. -/
def isNegative (x : Binary64) : Bool := decide (Nat.pow 2 63 ≤ x.bits.toNat)

def exponentField (x : Binary64) : Nat := x.bits.toNat / Nat.pow 2 52 % Nat.pow 2 11

def fractionField (x : Binary64) : Nat := x.bits.toNat % Nat.pow 2 52

def isNaN (x : Binary64) : Bool := x.exponentField == 2047 && x.fractionField != 0

def isInfinite (x : Binary64) : Bool := x.exponentField == 2047 && x.fractionField == 0

def isZero (x : Binary64) : Bool := x.exponentField == 0 && x.fractionField == 0

/-- The significand `m` of a finite number, whose magnitude is `m · 2 ^ power`. -/
def significand (x : Binary64) : Nat :=
  if x.exponentField = 0 then x.fractionField else Nat.pow 2 52 + x.fractionField

/-- The power of two that goes with `significand`. -/
def power (x : Binary64) : Int :=
  if x.exponentField = 0 then -1074 else (x.exponentField : Int) - 1075

/-- The next smaller magnitude is only half as far away as the next larger one. -/
def hasNarrowStepBelow (x : Binary64) : Bool := x.fractionField == 0 && decide (1 < x.exponentField)

/-! ## 2. Comparison of numbers -/

/-- The numbers are equal: neither is a NaN, and they agree bit by bit or are both zero. -/
def equals (x y : Binary64) : Bool :=
  !x.isNaN && !y.isNaN && (x.bits == y.bits || (x.isZero && y.isZero))

theorem equals_self_iff {x : Binary64} : x.equals x = true ↔ x.isNaN = false := by
  simp [equals]

theorem equals_comm (x y : Binary64) : x.equals y = y.equals x := by
  unfold equals
  rw [Bool.and_comm (!x.isNaN), Bool.and_comm x.isZero, BEq.comm (a := x.bits)]

end Binary64

end SqlClause
