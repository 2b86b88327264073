import Depthwise.Fixed.Mantissa

/-!
# Fixed-point values

A value is `raw * 2 ^ (-frac)`.  Arithmetic never rounds: a sum is taken at the larger number of
fractional bits, a product adds the two.  Only the mantissa's own range bounds it, by saturation,
as long as the numbers of fractional bits keep to theirs (`Fixed.FracFits`).
Values are compared at the larger number as well (`Fixed.equal`), so one half with one fractional
bit equals one half with eight.
-/

namespace Depthwise

-- Powers are those of the core library, whatever else is imported.
attribute [local instance (high)] instPowNat

/-- The value `raw * 2 ^ (-frac)`. -/
structure Fixed where
  raw : Int
  frac : Int
  deriving DecidableEq, Repr

namespace Fixed

/-- `n` is a number of fractional bits, which is a signed integer of 32 bits.  What becomes of a
value whose number of fractional bits would leave that range is not told here. -/
def FracFits (n : Int) : Prop := -2 ^ (31 : Nat) ≤ n ∧ n < 2 ^ (31 : Nat)

instance (n : Int) : Decidable (FracFits n) := inferInstanceAs (Decidable (_ ∧ _))

/-- Zero, without fractional bits. -/
def zero : Fixed := ⟨0, 0⟩

instance : Inhabited Fixed := ⟨zero⟩

/-- An integer, without fractional bits. -/
def ofInt (n : Int) : Fixed := ⟨n, 0⟩

/-- The mantissa of `x` at `frac` fractional bits, `frac` being no less than its own. -/
def aligned (x : Fixed) (frac : Int) : Int := Mantissa.shiftLeft x.raw (frac - x.frac).toNat

/-- `x` and `y` have the same mantissa at the larger number of fractional bits. -/
def equal (x y : Fixed) : Bool :=
  let frac := max x.frac y.frac
  x.aligned frac == y.aligned frac

def add (x y : Fixed) : Fixed :=
  let frac := max x.frac y.frac
  ⟨Mantissa.saturate (x.aligned frac + y.aligned frac), frac⟩

def neg (x : Fixed) : Fixed := ⟨Mantissa.saturate (-x.raw), x.frac⟩

def sub (x y : Fixed) : Fixed := x.add y.neg

def mul (x y : Fixed) : Fixed := ⟨Mantissa.saturate (x.raw * y.raw), x.frac + y.frac⟩

instance : Add Fixed := ⟨add⟩
instance : Neg Fixed := ⟨neg⟩
instance : Sub Fixed := ⟨sub⟩
instance : Mul Fixed := ⟨mul⟩

/-- `x * 2 ^ e`, exactly. -/
def scale (x : Fixed) (e : Int) : Fixed := ⟨x.raw, x.frac - e⟩

end Fixed

end Depthwise
