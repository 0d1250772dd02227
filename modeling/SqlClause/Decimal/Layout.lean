import SqlClause.Decimal.Shortest

/-!
# Number texts

The shortest digits of a number (`Decimal.shortest`) are set out by a `Layout`: which numbers are
written positionally, whether a whole number gets a `.0`, and the texts of what is no number. Two
layouts are in use:

* `Layout.plain`, in statement text: positional at every size, no suffix;
* `Layout.outline`, in outlines: positional from `0.0001` to below `10 ^ 16`, whole numbers with
  `.0`, and everything else with an exponent, as in `1e16` or `1.5e-7`.
-/

namespace SqlClause.Decimal

/-- How a number is written, once its digits are known. -/
structure Layout where
  /-- The positions of the point for which digits are written positionally; position `p` means
  `0.d₁d₂… · 10 ^ p`. -/
  positional : Int → Bool
  /-- A whole number in positional form ends in `.0`. -/
  marksWhole : Bool

/-- Positional at every size, and whole numbers without a point. -/
def Layout.plain : Layout := ⟨fun _ => true, false⟩

/-- Positional from `10 ^ -4` to below `10 ^ 16`, and whole numbers with `.0`. -/
def Layout.outline : Layout := ⟨fun p => decide (-3 ≤ p) && decide (p ≤ 16), true⟩

/-- The decimal digits of a natural number. -/
def naturalDigits (n : Nat) : List Char := Nat.toDigits 10 n

def zeros (n : Nat) : List Char := List.replicate n '0'

/-- The digits with the point at position `p`. -/
def positionalText (marksWhole : Bool) (ds : List Char) (p : Int) : List Char :=
  if p ≤ 0 then ['0', '.'] ++ zeros (-p).toNat ++ ds
  else if ds.length ≤ p.toNat then
    ds ++ zeros (p.toNat - ds.length) ++ (if marksWhole then ['.', '0'] else [])
  else ds.take p.toNat ++ ['.'] ++ ds.drop p.toNat

/-- One digit, the rest after a point, and the exponent. -/
def exponentText (ds : List Char) (p : Int) : List Char :=
  let fraction := match ds.drop 1 with
    | [] => []
    | rest => '.' :: rest
  let exponent := p - 1
  ds.take 1 ++ fraction ++ ['e'] ++ (if exponent < 0 then ['-'] else [])
    ++ naturalDigits exponent.natAbs

/-- The text of a magnitude given by its shortest decimal. -/
def magnitudeText (layout : Layout) (d : Scientific) : List Char :=
  if d.digits = 0 then '0' :: (if layout.marksWhole then ['.', '0'] else [])
  else
    let ds := naturalDigits d.digits
    let p := (ds.length : Int) + d.exponent
    if layout.positional p then positionalText layout.marksWhole ds p else exponentText ds p

/-- The text of a number. A NaN has no sign. -/
def text (layout : Layout) (x : Binary64) : String :=
  if x.isNaN then "NaN"
  else
    let magnitude := if x.isInfinite then ['i', 'n', 'f'] else magnitudeText layout (shortest x)
    String.ofList (if x.isNegative then '-' :: magnitude else magnitude)

end SqlClause.Decimal
