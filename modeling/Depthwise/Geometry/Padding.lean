import Depthwise.Geometry.Basic
import Depthwise.Log
import Depthwise.Text.Blank

/-!
# Padding

A layer is usually given by its windows and a padding mode, from which the pads and the number of
windows follow.  `valid` keeps the windows inside the input; `same` takes as many windows as there
are steps to cover the input and splits the padding they need in two, the odd cell going behind.
-/

namespace Depthwise

/-- How the pads of a layer are chosen. -/
inductive Padding where
  | valid
  | same
  deriving DecidableEq, Repr

namespace Padding

/-- The name of a mode in reports. -/
def label : Padding → String
  | valid => "Valid"
  | same => "Same"

/-- The name of a mode in a configuration. -/
def name : Padding → String
  | valid => "valid"
  | same => "same"

/-- The modes in their usual order. -/
def all : List Padding := [valid, same]

/-- Read a mode in small or in capital letters, blanks around it being dropped. -/
def parse (s : String) : Except Fault Padding :=
  match String.ofList (Text.trim s.toList) with
  | "valid" | "VALID" => .ok valid
  | "same" | "SAME" => .ok same
  | _ => .error .invalidPadding

/-- The span of a window under a padding mode. -/
def fit (axis : Axis) (w : Window) (padding : Padding) : Except Fault Span := do
  require (w.input ≠ 0) (.zeroDimension axis.extent)
  match padding with
  | valid => return ⟨w, ← windowCount axis w.input w.filt w.stride, 0, some 0⟩
  | same =>
    require (w.stride ≠ 0) .zeroStride
    let out := (w.input + w.stride - 1) / w.stride
    -- the last window starts inside the input, so only the sum can fail to fit
    let reach ← demand (.shapeOverflow (.padded axis)) (Count.add? ((out - 1) * w.stride) w.filt)
    let total := reach - w.input
    return ⟨w, out, total / 2, some (total - total / 2)⟩

end Padding

namespace Geometry

/-- The geometry of two windows under a padding mode. -/
def derive (rows cols : Window) (channels depthMultiplier : Nat) (padding : Padding) :
    Except Fault Geometry := do
  require (rows.stride ≠ 0 ∧ cols.stride ≠ 0) .zeroStride
  let rows ← padding.fit .height rows
  let cols ← padding.fit .width cols
  let filters ← demand (.shapeOverflow .filters) (Count.mul? channels depthMultiplier)
  let g : Geometry := ⟨rows, cols, channels, filters⟩
  g.validate
  return g

/-- The record of a derived geometry. -/
def derivedRecord (padding : Padding) (g : Geometry) : Log.Record where
  level := .debug
  text :=
    let pads := s!"{g.rows.before},{g.rows.after.getD 0},{g.cols.before},{g.cols.after.getD 0}"
    s!"depthwise shape {padding.label} padding: in={g.inputText} out={g.outputText} " ++
      s!"pads(t,b,l,r)=({pads})"

/-- Derive a geometry and report it. -/
def withPadding (rows cols : Window) (channels depthMultiplier : Nat) (padding : Padding) :
    ExceptT Fault Logged Geometry := do
  let g ← ExceptT.mk (pure (derive rows cols channels depthMultiplier padding))
  Logged.record (derivedRecord padding g)
  return g

end Geometry

end Depthwise
