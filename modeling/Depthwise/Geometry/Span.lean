import Depthwise.Count
import Depthwise.Fault

/-!
# One spatial axis

A **window** of `filt` cells is swept over an axis of `input` cells in steps of `stride`.  A **span**
adds the padding and the number of windows: `before` implicit zero cells lead, and window `o` starts
at cell `o * stride` of the padded axis.  A trailing pad, when given, pins the number of windows;
without one, windows may run past the input into implicit zeros as long as each starts before the
end of the leading-padded input.
-/

namespace Depthwise

/-- A window swept over an axis. -/
structure Window where
  input : Nat
  filt : Nat
  stride : Nat
  deriving DecidableEq, Repr

/-- A padded axis with its windows. -/
structure Span extends Window where
  out : Nat
  before : Nat
  after : Option Nat
  deriving DecidableEq, Repr

/-- The extent of the input along an axis. -/
def Axis.extent : Axis → Extent
  | .height => .inHeight
  | .width => .inWidth

/-- The number of windows on `padded` cells. -/
def windowCount (axis : Axis) (padded filt stride : Nat) : Except Fault Nat := do
  require (stride ≠ 0) .zeroStride
  require (filt ≤ padded) (.filterExceedsInput axis filt padded)
  return (padded - filt) / stride + 1

namespace Span

/-- The input cell that cell `k` of window `o` covers, if it is not padding. -/
def tap? (s : Span) (o k : Nat) : Option (Fin s.input) :=
  let cell := o * s.stride + k
  if h : s.before ≤ cell ∧ cell - s.before < s.input then some ⟨cell - s.before, h.2⟩ else none

/-- Cell `k` of window `o` covers input cell `i` when the two stand at one place of the padded
axis. -/
theorem tap?_eq_some {s : Span} {o k : Nat} {i : Fin s.input} :
    s.tap? o k = some i ↔ o * s.stride + k = s.before + i := by
  have hi := i.isLt
  by_cases h : s.before ≤ o * s.stride + k ∧ o * s.stride + k - s.before < s.input
  · simp only [tap?, dif_pos h, Option.some.injEq, Fin.ext_iff]
    omega
  · simp only [tap?, dif_neg h, reduceCtorEq, false_iff]
    omega

/-- The cells of window `o` that are not padding, each with the input cell it covers. -/
def taps (s : Span) (o : Nat) : List (Fin s.filt × Fin s.input) :=
  (List.finRange s.filt).filterMap fun (k : Fin s.filt) =>
    (s.tap? o k).map fun cell => (k, cell)

/-- The number of windows is what the padded axis gives, or with no trailing pad at most that. -/
def check (axis : Axis) (s : Span) : Except Fault Unit := do
  let overflow := Fault.shapeOverflow (.padded axis)
  let front ← demand overflow (Count.add? s.input s.before)
  match s.after with
  | some after =>
    let padded ← demand overflow (Count.add? front after)
    let expected ← windowCount axis padded s.filt s.stride
    require (expected = s.out) (.outputExtent axis expected s.out)
  | none =>
    let expected := (front - 1) / s.stride + 1
    -- the last window must fit even where it lies in implicit zeros
    let start ← demand overflow (Count.mul? (s.out - 1) s.stride)
    let _ ← demand overflow (Count.add? start s.filt)
    require (s.out ≤ expected) (.outputExtent axis expected s.out)

end Span

end Depthwise
