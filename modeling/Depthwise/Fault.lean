/-!
# Faults

Everything that can be refused: an inconsistent geometry, a buffer of the wrong length, an unknown
padding name, a malformed or inadmissible precision.  A fault records its cause; `Fault.message`
gives its wording.  Arithmetic is never refused, overflow and rounding being policy.
-/

namespace Depthwise

/-- A spatial axis of a feature map. -/
inductive Axis where
  | height
  | width
  deriving DecidableEq, Repr

/-- The buffers a layer reads and writes. -/
inductive Operand where
  | input
  | weights
  | biases
  | output
  deriving DecidableEq, Repr

/-- The extents that must be positive. -/
inductive Extent where
  | inHeight
  | inWidth
  | channels
  | filters
  | filtHeight
  | filtWidth
  | outHeight
  | outWidth
  deriving DecidableEq, Repr

/-- The derived quantities that must fit a machine word. -/
inductive Measure where
  | filters
  | padded (axis : Axis)
  | inputLength
  | weightLength
  | outputLength
  deriving DecidableEq, Repr

/-- Why a precision is refused. -/
inductive PrecisionFault where
  | unopened
  | unclosed
  | unknownKind
  | badWidth
  | badInteger
  | unknownRounding
  | unknownOverflow
  | tooManyParameters
  | widthOutOfRange
  | fractionOutOfRange
  deriving DecidableEq, Repr

/-- Why a layer, a buffer or a precision is refused. -/
inductive Fault where
  | lengthMismatch (operand : Operand) (expected actual : Nat)
  | depthMultiplier (channels filters : Nat)
  | zeroDimension (extent : Extent)
  | zeroStride
  | filterExceedsInput (axis : Axis) (filter padded : Nat)
  | outputExtent (axis : Axis) (expected actual : Nat)
  | shapeOverflow (measure : Measure)
  | invalidPadding
  | invalidPrecision (fault : PrecisionFault)
  deriving DecidableEq, Repr

/-! ### Wording -/

def Axis.label : Axis → String
  | .height => "height"
  | .width => "width"

def Operand.label : Operand → String
  | .input => "input"
  | .weights => "weights"
  | .biases => "biases"
  | .output => "output"

def Extent.label : Extent → String
  | .inHeight => "in_height"
  | .inWidth => "in_width"
  | .channels => "n_chan"
  | .filters => "n_filt"
  | .filtHeight => "filt_height"
  | .filtWidth => "filt_width"
  | .outHeight => "out_height"
  | .outWidth => "out_width"

def Measure.label : Measure → String
  | .filters => "n_filt"
  | .padded axis => s!"padded {axis.label}"
  | .inputLength => "input length"
  | .weightLength => "weight length"
  | .outputLength => "output length"

def PrecisionFault.reason : PrecisionFault → String
  | .unopened => "expected `fixed<W,I>`"
  | .unclosed => "missing closing `>`"
  | .unknownKind => "unknown fixed-point kind"
  | .badWidth => "bad width"
  | .badInteger => "bad integer bits"
  | .unknownRounding => "unknown rounding mode"
  | .unknownOverflow => "unknown overflow mode"
  | .tooManyParameters => "too many parameters"
  | .widthOutOfRange => "width must be in 1..=32"
  | .fractionOutOfRange => "fractional bits must be within -32..=32"

/-- The wording of a fault. -/
def Fault.message : Fault → String
  | .lengthMismatch operand expected actual =>
    s!"{operand.label} length mismatch: expected {expected}, got {actual}"
  | .depthMultiplier channels filters =>
    s!"n_filt ({filters}) is not a multiple of n_chan ({channels})"
  | .zeroDimension extent => s!"{extent.label} must be non-zero"
  | .zeroStride => "stride must be non-zero"
  | .filterExceedsInput axis filter padded =>
    s!"filter {axis.label} {filter} exceeds padded input {axis.label} {padded}"
  | .outputExtent axis expected actual =>
    s!"output {axis.label} mismatch: geometry gives {expected}, config declares {actual}"
  | .shapeOverflow measure => s!"{measure.label} overflows usize"
  | .invalidPadding => "padding must be `valid` or `same`"
  | .invalidPrecision fault => s!"invalid fixed-point precision: {fault.reason}"

/-! ### Checks -/

/-- A fault unless `p` holds. -/
def require (p : Prop) [Decidable p] (fault : Fault) : Except Fault Unit :=
  if p then .ok () else .error fault

/-- The value, or a fault if there is none. -/
def demand {α : Type} (fault : Fault) : Option α → Except Fault α
  | some a => .ok a
  | none => .error fault

theorem require_eq_ok {p : Prop} [Decidable p] {fault : Fault} :
    require p fault = .ok () ↔ p := by
  unfold require
  split <;> simp_all

theorem demand_eq_ok {α : Type} {fault : Fault} {o : Option α} {a : α} :
    demand fault o = .ok a ↔ o = some a := by
  cases o <;> simp [demand]

/-- A computation followed by another succeeds when both do. -/
theorem bind_eq_ok {ε α β : Type} {x : Except ε α} {f : α → Except ε β} {b : β} :
    (x >>= f) = .ok b ↔ ∃ a, x = .ok a ∧ f a = .ok b := by
  cases x <;> simp [bind, Except.bind]

theorem map_eq_ok {ε α β : Type} {x : Except ε α} {f : α → β} {b : β} :
    x.map f = .ok b ↔ ∃ a, x = .ok a ∧ f a = b := by
  cases x <;> simp [Except.map]

/-- One check after another passes when both do. -/
theorem seq_eq_ok {β : Type} {x : Except Fault Unit} {f : Unit → Except Fault β} {b : β} :
    (x >>= f) = .ok b ↔ x = .ok () ∧ f () = .ok b := by
  cases x <;> simp [bind, Except.bind]

end Depthwise
