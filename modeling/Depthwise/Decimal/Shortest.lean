import Depthwise.Binary

/-!
# Shortest decimals

Among the decimals that read back as a given floating-point number, the one with the fewest digits,
and of those the nearest.  A decimal reads back when it lies in the number's **rounding interval**,
whose ends belong to it when the coefficient is even.  A decimal with fewer digits is a multiple of
a larger power of ten, so the search goes from coarse to fine and stops at the first power of which
a multiple lies in the interval; it need only look at the value's two neighbours there.
-/

namespace Depthwise

-- Powers are those of the core library, whatever else is imported.
attribute [local instance (high)] instPowNat

/-- The number `digits * 10 ^ exponent`. -/
structure Decimal where
  digits : Nat
  exponent : Int
  deriving DecidableEq, Repr

namespace Decimal

/-- Which of two equally near decimals is taken. -/
inductive Tie where
  | up
  | even
  deriving DecidableEq, Repr

/-- The rounding interval of a number and the number itself, as integers in units of
`2 ^ exponent`. -/
structure Interval where
  low : Nat
  value : Nat
  high : Nat
  exponent : Int
  closed : Bool
  deriving DecidableEq, Repr

/-- The rounding interval of `coefficient * 2 ^ exponent` in a format: half a last place to either
side, but only a quarter below a power of two, where the places below are half as wide. -/
def Interval.ofDyadic (I : Binary.Interchange) (coefficient : Nat) (exponent : Int) : Interval :=
  let narrow := coefficient == 2 ^ I.fractionBits && decide (I.leastExponent < exponent)
  ⟨4 * coefficient - (if narrow then 1 else 2), 4 * coefficient, 4 * coefficient + 2,
    exponent - 2, coefficient % 2 == 0⟩

/-- `n / (10 ^ k / 2 ^ e)` as a fraction, for comparisons on the grid of multiples of
`10 ^ k`. -/
def Interval.scaled (i : Interval) (k : Int) : (Nat → Nat) × Nat :=
  let up := 2 ^ i.exponent.toNat * 10 ^ (-k).toNat
  let down := 2 ^ (-i.exponent).toNat * 10 ^ k.toNat
  (fun n => n * up, down)

/-- `d * 10 ^ k` lies in the interval. -/
def Interval.contains (i : Interval) (k : Int) (d : Nat) : Bool :=
  let (num, den) := i.scaled k
  if i.closed then num i.low ≤ d * den && d * den ≤ num i.high
  else num i.low < d * den && d * den < num i.high

/-- The multiple of `10 ^ k` in the interval that is nearest to the value, if there is one. -/
def Interval.nearest? (tie : Tie) (i : Interval) (k : Int) : Option Nat :=
  let (num, den) := i.scaled k
  let below := num i.value / den
  let twice := 2 * (num i.value % den)
  let upper :=
    den < twice || (twice == den && (match tie with | .up => true | .even => below % 2 == 1))
  match 0 < below && i.contains k below, i.contains k (below + 1) with
  | true, true => some (if upper then below + 1 else below)
  | true, false => some below
  | false, true => some (below + 1)
  | false, false => none

/-- Search the grids from `10 ^ k` down, at most `steps` of them. -/
def Interval.search (tie : Tie) (i : Interval) : Nat → Int → Decimal
  | 0, k => let (num, den) := i.scaled k; ⟨num i.value / den, k⟩
  | steps + 1, k =>
    match i.nearest? tie k with
    | some d => ⟨d, k⟩
    | none => i.search tie steps (k - 1)

/-- The shortest decimal of `coefficient * 2 ^ exponent` in a format.  The value is below
`2 ^ length`, hence below the first grid, and seventeen digits always suffice. -/
def shortest (tie : Tie) (I : Binary.Interchange) (coefficient : Nat) (exponent : Int) : Decimal :=
  if coefficient = 0 then ⟨0, 0⟩
  else
    let length : Int := coefficient.log2 + 1 + exponent
    (Interval.ofDyadic I coefficient exponent).search tie 21 (length * 30103 / 100000 + 1)

end Decimal

end Depthwise
