import SqlClause.Decimal.Binary64

/-!
# The shortest decimal that reads back

Of all decimals that round to a given binary number, the shortest is the one on the coarsest grid
`10 ^ k`: the first power of ten, from large to small, of which some multiple lies in the interval
of reals that round to the number. On that grid only the two multiples next to the number are of
interest; if both lie in the interval the nearer one is taken, and the upper one if both are
equally near. The ends of the interval belong to it when the significand is even.

All of this is arithmetic on natural numbers: the interval is held as three numerators over one
denominator.

* `Interval.multiple?_mem`: the multiple that is taken lies in the interval.
-/

namespace SqlClause.Decimal

/-- The reals that round to one binary number: `low`, the number itself and `high`, in units of `1
/ denominator`. -/
structure Interval where
  low : Nat
  middle : Nat
  high : Nat
  denominator : Nat
  /-- Whether the two ends round to the number as well. -/
  closed : Bool

/-- A decimal `digits · 10 ^ exponent`. -/
structure Scientific where
  digits : Nat
  exponent : Int
deriving DecidableEq, Repr

/-! ## 1. The interval of a number -/

/-- The interval of a finite number's magnitude, in quarters of its last binary place. -/
def Interval.ofBinary (x : Binary64) : Interval :=
  let quarter := Nat.pow 2 (x.power - 2).toNat
  { low := (4 * x.significand - if x.hasNarrowStepBelow then 1 else 2) * quarter
    middle := 4 * x.significand * quarter
    high := (4 * x.significand + 2) * quarter
    denominator := Nat.pow 2 (2 - x.power).toNat
    closed := x.significand % 2 == 0 }

namespace Interval

/-- The real `a / denominator` lies in the interval. -/
def contains (i : Interval) (a : Nat) : Bool :=
  if i.closed then decide (i.low ≤ a) && decide (a ≤ i.high)
  else decide (i.low < a) && decide (a < i.high)

/-- The interval in units that are `10 ^ n` times smaller. -/
def refine (i : Interval) (n : Nat) : Interval :=
  let scale := Nat.pow 10 n
  { i with low := i.low * scale, middle := i.middle * scale, high := i.high * scale }

/-! ## 2. One grid -/

/-- The multiple of `step` in the interval that is next to the number, if there is one. -/
def multiple? (i : Interval) (step : Nat) : Option Nat :=
  let below := i.middle / step
  let takeBelow := i.contains (below * step)
  let takeAbove := i.contains ((below + 1) * step)
  if takeBelow && (!takeAbove || decide (2 * (i.middle - below * step) < step)) then some below
  else if takeAbove then some (below + 1)
  else none

theorem multiple?_mem {i : Interval} {step n : Nat} (h : i.multiple? step = some n) :
    i.contains (n * step) = true := by
  unfold multiple? at h
  simp only at h
  split at h
  · rename_i hb
    cases h
    exact (Bool.and_eq_true_iff.mp hb).1
  · split at h
    · rename_i ha
      cases h
      exact ha
    · cases h

/-- The multiple of `10 ^ k` in the interval that is next to the number, if there is one. -/
def onGrid? (i : Interval) (k : Int) : Option Nat :=
  (i.refine (-k).toNat).multiple? (i.denominator * Nat.pow 10 k.toNat)

/-! ## 3. From coarse to fine -/

/-- The first grid with a multiple in the interval, of the `count` grids from `10 ^ k` downwards.
-/
def coarsest? (i : Interval) : Nat → Int → Option Scientific
  | 0, _ => none
  | count + 1, k =>
      match i.onGrid? k with
      | some n => some ⟨n, k⟩
      | none => coarsest? i count (k - 1)

end Interval

/-- No finite number reaches the next power of ten, so no coarser grid has a multiple to offer. -/
def coarsestExponent : Int := 309

/-- The grids from `10 ^ 309` down to `10 ^ -1074`, which holds every finite number itself. -/
def gridCount : Nat := 1384

/-- The shortest decimal that rounds to the magnitude of a finite number; of zero, zero. -/
def shortest (x : Binary64) : Scientific :=
  if x.isZero then ⟨0, 0⟩
  else ((Interval.ofBinary x).coarsest? gridCount coarsestExponent).getD ⟨0, 0⟩

end SqlClause.Decimal
