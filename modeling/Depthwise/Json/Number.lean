import Depthwise.Binary
import Depthwise.Json.Lexical

/-!
# JSON numbers

A numeral without a point and without an exponent is an **integer** while it fits 64 bits; a negative
one must be below zero, so `-0` is not an integer.  Every other numeral is a **real**: its first
digits, as many as fit 64 bits, are taken as an integer and scaled by the power of ten that its
point, its exponent and its remaining digits ask for, in floating-point arithmetic.  A real beyond
the floating-point range is malformed.
-/

namespace Depthwise.Json

-- Powers are those of the core library, whatever else is imported.
attribute [local instance (high)] instPowNat

/-- A number, with the bit pattern of a real. -/
inductive Number where
  | natural (n : Nat)
  | negative (n : Int)
  | real (bits : UInt64)
  deriving DecidableEq, Repr

/-- The parts of a numeral: its sign, the digits before the point, those behind it if there is a
point, and its exponent's sign and digits if there is one. -/
structure Numeral where
  negative : Bool
  whole : List Char
  fraction : Option (List Char)
  exponent : Option (Bool × List Char)
  deriving DecidableEq, Repr

namespace Numeral

/-- One or more digits: the digits and the rest. -/
def digits (cs : List Char) : Except Break (List Char × List Char) :=
  match cs.takeWhile Char.isDigit with
  | [] => .error (if cs.isEmpty then .cutShort else .malformed)
  | ds => .ok (ds, cs.dropWhile Char.isDigit)

/-- The digits before the point; a leading zero stands alone. -/
def wholeDigits (cs : List Char) : Except Break (List Char × List Char) := do
  let (ds, rest) ← digits cs
  if ds.head? = some '0' ∧ 1 < ds.length then .error .malformed else return (ds, rest)

/-- The point and the digits behind it. -/
def fractionDigits : List Char → Except Break (Option (List Char) × List Char)
  | '.' :: cs => do
    let (ds, rest) ← digits cs
    return (some ds, rest)
  | cs => .ok (none, cs)

/-- The exponent with its sign. -/
def exponentDigits : List Char → Except Break (Option (Bool × List Char) × List Char)
  | c :: cs =>
    if c = 'e' ∨ c = 'E' then do
      let (negative, unsigned) := match cs with
        | '-' :: r => (true, r)
        | '+' :: r => (false, r)
        | r => (false, r)
      let (ds, rest) ← digits unsigned
      return (some (negative, ds), rest)
    else .ok (none, c :: cs)
  | [] => .ok (none, [])

/-- The numeral at the start of a text, and the rest. -/
def scan (cs : List Char) : Except Break (Numeral × List Char) := do
  let (negative, unsigned) := match cs with
    | '-' :: r => (true, r)
    | r => (false, r)
  let (whole, rest) ← wholeDigits unsigned
  let (fraction, rest) ← fractionDigits rest
  let (exponent, rest) ← exponentDigits rest
  return (⟨negative, whole, fraction, exponent⟩, rest)

/-- The greatest integer a numeral's digits are gathered into. -/
def gatherLimit : Nat := 2 ^ (64 : Nat) - 1

/-- Gather digits after `n` while they fit: the number and the digits left over. -/
def gather : Nat → List Char → Nat × List Char
  | n, [] => (n, [])
  | n, c :: cs =>
    let next := n * 10 + (c.toNat - '0'.toNat)
    if next ≤ gatherLimit then gather next cs else (n, c :: cs)

/-- `2 ^ 31 - 1`, the greatest exponent that is looked at. -/
def exponentLimit : Nat := 2 ^ (31 : Nat) - 1

/-- The 64-bit floating-point number `10 ^ k`. -/
def powerOfTen (k : Nat) : Float := Float.ofScientific 1 false k

/-- `f * 10 ^ k` in floating-point arithmetic, large negative powers in steps of `10 ^ 308`;
absent when it is infinite.  Three steps bring every 64-bit integer to zero. -/
def scaleTen : Nat → Float → Int → Option Float
  | 0, f, _ => some f
  | steps + 1, f, k =>
    if k.natAbs ≤ 308 then
      if 0 ≤ k then
        let scaled := f * powerOfTen k.natAbs
        if scaled.isInf then none else some scaled
      else some (f / powerOfTen k.natAbs)
    else if f == 0 then some f
    else if 0 ≤ k then none
    else scaleTen steps (f / powerOfTen 308) (k + 308)

/-- The value of a real numeral, without its sign. -/
def magnitude (n : Numeral) : Option Float :=
  let (whole, left) := gather 0 n.whole
  let fraction := n.fraction.getD []
  let (significand, unused) := gather whole fraction
  let shift : Int := left.length - (fraction.length - unused.length : Nat)
  let start := Binary.toFloat (.ofInt significand)
  match n.exponent with
  | none => scaleTen 4 start shift
  | some (negative, ds) =>
    let e := Nat.ofDigitChars 10 ds 0
    if exponentLimit < e then
      if significand ≠ 0 ∧ !negative then none else some 0
    else
      let k : Int := shift + (if negative then -(e : Int) else e)
      scaleTen 4 start (max (-2 ^ (31 : Nat)) (min k (2 ^ (31 : Nat) - 1)))

/-- The number a numeral writes; a real beyond the floating-point range is malformed. -/
def value (n : Numeral) : Except Break Number :=
  let (whole, left) := gather 0 n.whole
  if n.fraction.isNone ∧ n.exponent.isNone ∧ left.isEmpty ∧
      (!n.negative ∨ (0 < whole ∧ whole ≤ 2 ^ (63 : Nat))) then
    .ok (if n.negative then .negative (-(whole : Int)) else .natural whole)
  else
    match n.magnitude with
    | none => .error .malformed
    | some f => .ok (.real (if n.negative then -f else f).toBits)

end Numeral

end Depthwise.Json
