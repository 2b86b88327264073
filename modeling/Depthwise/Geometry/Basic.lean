import Depthwise.Geometry.Span
import Depthwise.Tensor

/-!
# Layer geometry

The shape of one depthwise convolution: two spans, the input channels and the output channels
(`filters`).  Each input channel is convolved with its own `depthMultiplier` windows and channels
never mix.  `Geometry.validate` reports the first inconsistency and is the one gate to the kernel;
afterwards only buffer lengths are checked (`Geometry.checkOperands`).
-/

namespace Depthwise

/-- The geometry of a layer. -/
structure Geometry where
  rows : Span
  cols : Span
  channels : Nat
  filters : Nat
  deriving DecidableEq, Repr

namespace Geometry

variable (g : Geometry)

/-- The output channels of one input channel. -/
def depthMultiplier : Nat := g.filters / g.channels

def inputMap : FeatureMap := ⟨g.rows.input, g.cols.input, g.channels⟩

def outputMap : FeatureMap := ⟨g.rows.out, g.cols.out, g.filters⟩

def filterBank : FilterBank := ⟨g.depthMultiplier, g.rows.filt, g.cols.filt, g.channels⟩

/-- The extents that must be positive, in the order in which they are looked at. -/
def extents : List (Extent × Nat) :=
  [(.inHeight, g.rows.input), (.inWidth, g.cols.input), (.channels, g.channels),
    (.filters, g.filters), (.filtHeight, g.rows.filt), (.filtWidth, g.cols.filt),
    (.outHeight, g.rows.out), (.outWidth, g.cols.out)]

/-- The element counts that must fit, in the order in which they are looked at. -/
def lengths : List (Measure × Option Nat) :=
  [(.inputLength, g.inputMap.checkedLen), (.weightLength, g.filterBank.checkedLen),
    (.outputLength, g.outputMap.checkedLen)]

/-- Everything the kernel relies on. -/
def validate : Except Fault Unit := do
  match g.extents.find? (·.2 == 0) with
  | some (extent, _) => .error (.zeroDimension extent)
  | none => pure ()
  require (g.rows.stride ≠ 0 ∧ g.cols.stride ≠ 0) .zeroStride
  require (g.filters % g.channels = 0) (.depthMultiplier g.channels g.filters)
  g.rows.check .height
  g.cols.check .width
  match g.lengths.find? (·.2.isNone) with
  | some (measure, _) => .error (.shapeOverflow measure)
  | none => pure ()

/-- The lengths the four buffers must have, in the order in which they are looked at. -/
def operandLengths (input weights biases output : Nat) : List (Operand × Nat × Nat) :=
  [(.input, g.inputMap.len, input), (.weights, g.filterBank.len, weights),
    (.biases, g.filters, biases), (.output, g.outputMap.len, output)]

/-- Check the lengths of the four buffers. -/
def checkOperands (input weights biases output : Nat) : Except Fault Unit :=
  match (g.operandLengths input weights biases output).find? fun l => l.2.1 != l.2.2 with
  | some (operand, expected, actual) => .error (.lengthMismatch operand expected actual)
  | none => .ok ()

/-! ### Sizes in reports -/

def inputText : String := s!"{g.rows.input}x{g.cols.input}x{g.channels}"

def outputText : String := s!"{g.rows.out}x{g.cols.out}x{g.filters}"

def filterText : String := s!"{g.rows.filt}x{g.cols.filt}"

def strideText : String := s!"{g.rows.stride}x{g.cols.stride}"

end Geometry

end Depthwise
