/-!
# Binary floating point

A binary interchange format has a sign bit, a biased exponent and a fraction.  A pattern **decodes**
to an exact signed dyadic number, an infinity or an undefined value, and a dyadic number **encodes**
to the nearest pattern, ties to the even one, going over to an infinity beyond the largest finite
number and losing bits gradually below the least normal one.  Scaling by a power of two is exact on
dyadic numbers, so `Interchange.scale` rounds once.
-/

namespace Depthwise.Binary

-- Powers are those of the core library, whatever else is imported.
attribute [local instance (high)] instPowNat

/-- A number or one of the special values of a floating-point format: here
`finite negative coefficient exponent` is `coefficient * 2 ^ exponent` with its sign. -/
inductive Extended where
  | undefined
  | infinite (negative : Bool)
  | finite (negative : Bool) (coefficient : Nat) (exponent : Int)
  deriving DecidableEq, Repr

namespace Extended

/-- The value times `2 ^ k`, exactly. -/
def scale (k : Int) : Extended → Extended
  | undefined => undefined
  | infinite negative => infinite negative
  | finite negative coefficient exponent => finite negative coefficient (exponent + k)

/-- The integer `n`. -/
def ofInt (n : Int) : Extended := finite (n < 0) n.natAbs 0

/-- The greatest integer that is not above `± coefficient * 2 ^ exponent`. -/
def floorDyadic (negative : Bool) (coefficient : Nat) (exponent : Int) : Int :=
  let signed : Int := if negative then -(coefficient : Int) else coefficient
  if 0 ≤ exponent then signed * 2 ^ exponent.toNat else signed / 2 ^ (-exponent).toNat

/-- The floor of the value brought into `[lo, hi]`; an undefined value counts as zero. -/
def floorWithin (lo hi : Int) : Extended → Int
  | undefined => 0
  | infinite negative => if negative then lo else hi
  | finite negative coefficient exponent =>
    max lo (min (floorDyadic negative coefficient exponent) hi)

end Extended

/-- The widths of the two fields beside the sign bit. -/
structure Interchange where
  fractionBits : Nat
  exponentBits : Nat
  deriving DecidableEq, Repr

/-- The 32-bit format. -/
def single : Interchange := ⟨23, 8⟩

/-- The 64-bit format. -/
def double : Interchange := ⟨52, 11⟩

/-- `n / 2 ^ s` to the nearest integer, ties to even.  Once `s` passes the length of `n` by two
places the quotient rounds to zero. -/
def roundEven (n s : Nat) : Nat :=
  if n.log2 + 2 ≤ s then 0
  else
    let q := n / 2 ^ s
    let r := n % 2 ^ s
    if 2 ^ s < 2 * r ∨ (2 * r = 2 ^ s ∧ q % 2 = 1) then q + 1 else q

namespace Interchange

variable (I : Interchange)

/-- The exponent field of the special values. -/
def topExponent : Nat := 2 ^ I.exponentBits - 1

/-- The exponent of the last bit of the least numbers. -/
def leastExponent : Int := 2 - 2 ^ (I.exponentBits - 1) - I.fractionBits

/-- The pattern of positive infinity. -/
def infinityBits : Nat := I.topExponent * 2 ^ I.fractionBits

/-- The pattern of the sign bit alone. -/
def signBit : Nat := 2 ^ (I.fractionBits + I.exponentBits)

/-- What a bit pattern denotes. -/
def decode (bits : Nat) : Extended :=
  let fraction := bits % 2 ^ I.fractionBits
  let exponent := bits / 2 ^ I.fractionBits % 2 ^ I.exponentBits
  let negative := bits / I.signBit % 2 == 1
  if exponent = I.topExponent then
    if fraction = 0 then .infinite negative else .undefined
  else if exponent = 0 then .finite negative fraction I.leastExponent
  else .finite negative (fraction + 2 ^ I.fractionBits) (I.leastExponent + (exponent - 1))

/-- The pattern nearest to `coefficient * 2 ^ exponent`, without its sign.  The last bit kept is
that of a coefficient of full length, but none below the format's least one; a carry out of the
coefficient runs into the exponent field, which is right. -/
def encodeMagnitude (coefficient : Nat) (exponent : Int) : Nat :=
  if coefficient = 0 then 0
  else
    let length : Int := coefficient.log2 + 1
    let last := max (exponent + length - (I.fractionBits + 1)) I.leastExponent
    let kept :=
      if exponent ≤ last then roundEven coefficient (last - exponent).toNat
      else coefficient * 2 ^ (exponent - last).toNat
    min ((last - I.leastExponent).toNat * 2 ^ I.fractionBits + kept) I.infinityBits

/-- The pattern of a value, rounded to nearest with ties to even. -/
def encode : Extended → Nat
  | .undefined => I.infinityBits + 2 ^ (I.fractionBits - 1)
  | .infinite negative => (if negative then I.signBit else 0) + I.infinityBits
  | .finite negative coefficient exponent =>
    (if negative then I.signBit else 0) + I.encodeMagnitude coefficient exponent

/-- The pattern of a value times `2 ^ k`, rounded once. -/
def scale (bits : Nat) (k : Int) : Nat := I.encode ((I.decode bits).scale k)

end Interchange

/-! ### The machine's floating-point types -/

/-- What a 64-bit floating-point number denotes. -/
def ofFloat (x : Float) : Extended := double.decode x.toBits.toNat

/-- The 64-bit floating-point number nearest to a value. -/
def toFloat (v : Extended) : Float := Float.ofBits (double.encode v).toUInt64

/-- What a 32-bit floating-point number denotes. -/
def ofFloat32 (x : Float32) : Extended := single.decode x.toBits.toNat

/-- The 32-bit floating-point number nearest to a value. -/
def toFloat32 (v : Extended) : Float32 := Float32.ofBits (single.encode v).toUInt32

/-- `x * 2 ^ k`, rounded once. -/
def scaleFloat (x : Float) (k : Int) : Float := toFloat ((ofFloat x).scale k)

/-- `x * 2 ^ k`, rounded once. -/
def scaleFloat32 (x : Float32) (k : Int) : Float32 := toFloat32 ((ofFloat32 x).scale k)

end Depthwise.Binary
