import Depthwise.Decimal.Shortest
import Depthwise.Text.Numeral

/-!
# Decimal layouts

Two ways to write a shortest decimal.  The **positional** layout never has an exponent and no point
when the number is whole.  The **scientific** layout is positional while the point stays close to
the digits and has a signed exponent beyond; it always shows a point or an exponent.
-/

namespace Depthwise.Decimal

/-- The digits with the point after the first `whole` of them, zeros being filled in on either
side. -/
def pointed (digits : List Char) (whole : Int) : List Char :=
  if whole ≤ 0 then '0' :: '.' :: List.replicate (-whole).toNat '0' ++ digits
  else if (digits.length : Int) ≤ whole then
    digits ++ List.replicate (whole.toNat - digits.length) '0'
  else digits.take whole.toNat ++ '.' :: digits.drop whole.toNat

/-- The positional layout. -/
def positional (d : Decimal) : List Char :=
  let digits := Text.ofNat d.digits
  if d.digits = 0 then digits else pointed digits (digits.length + d.exponent)

/-- An exponent with its sign, also when it is positive. -/
def signedExponent (e : Int) : List Char := (if 0 ≤ e then ['+'] else []) ++ Text.ofInt e

/-- The scientific layout: an exponent from `1e+16` on and below `1e-5`, else a point. -/
def scientific (d : Decimal) : List Char :=
  let digits := Text.ofNat d.digits
  let whole : Int := digits.length + d.exponent
  if d.digits = 0 then "0.0".toList
  else if 16 < whole ∨ whole ≤ -5 then
    digits.take 1 ++ (if digits.length = 1 then [] else '.' :: digits.drop 1) ++
      'e' :: signedExponent (whole - 1)
  else if (digits.length : Int) ≤ whole then pointed digits whole ++ ".0".toList
  else pointed digits whole

/-- A floating-point value with its sign, the special ones by name. -/
def write (tie : Tie) (layout : Decimal → List Char) : Binary.Extended → String
  | .undefined => "NaN"
  | .infinite negative => if negative then "-inf" else "inf"
  | .finite negative coefficient exponent =>
    let digits := layout (shortest tie Binary.double coefficient exponent)
    String.ofList (if negative then '-' :: digits else digits)

end Depthwise.Decimal
