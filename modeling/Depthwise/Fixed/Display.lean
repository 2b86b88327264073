import Depthwise.Decimal.Layout
import Depthwise.Fixed.Real

/-!
# Fixed-point values in decimal

A fixed-point value is shown as its floating-point number, in the positional layout with the fewest
digits that read back.
-/

namespace Depthwise

/-- A fixed-point value in decimal, the upper of two equally near decimals being taken. -/
def Fixed.render (x : Fixed) : String :=
  Decimal.write .up Decimal.positional (Binary.double.decode x.floatBits)

end Depthwise
