import Depthwise.Fixed.Spelling
import Depthwise.Json.Decode

/-!
# Precisions as JSON

A mode is a name, spelled as in a text (`Rounding.jsonName_eq_name`, `Overflow.jsonName_eq_name`); a
precision is the record of its width, integer bits, signedness and two modes, the last three being
optional.  A record is read as a whole before its parts are judged, so a precision that is not
admitted is refused after its closing brace.
-/

namespace Depthwise

-- Powers are those of the core library, whatever else is imported.
attribute [local instance (high)] instPowNat

open Json (Value Reading ReadFault Schema)

/-- The name of a rounding mode in JSON. -/
def Rounding.jsonName : Rounding → String
  | down => "TRN"
  | towardZero => "TRN_ZERO"
  | nearestUp => "RND"
  | nearestTowardZero => "RND_ZERO"
  | nearestAway => "RND_INF"
  | nearestDown => "RND_MIN_INF"
  | nearestEven => "RND_CONV"

/-- The name of an overflow mode in JSON. -/
def Overflow.jsonName : Overflow → String
  | wrap => "WRAP"
  | saturate => "SAT"
  | zero => "SAT_ZERO"
  | symmetric => "SAT_SYM"

theorem Rounding.jsonName_eq_name (mode : Rounding) : mode.jsonName = mode.name := by
  cases mode <;> rfl

theorem Overflow.jsonName_eq_name (mode : Overflow) : mode.jsonName = mode.name := by
  cases mode <;> rfl

def Rounding.toJson (mode : Rounding) : Value := .text mode.jsonName

def Overflow.toJson (mode : Overflow) : Value := .text mode.jsonName

def Rounding.ofJson : Reading → Except ReadFault Rounding :=
  Reading.choice (Rounding.all.map fun mode => (mode.jsonName, mode))

def Overflow.ofJson : Reading → Except ReadFault Overflow :=
  Reading.choice (Overflow.all.map fun mode => (mode.jsonName, mode))

namespace Precision

/-- The parts of a precision before they are judged. -/
structure Parts where
  width : Nat
  integer : Int
  isSigned : Bool
  rounding : Rounding
  overflow : Overflow
  deriving DecidableEq, Repr

/-- The record of a precision. -/
def schema : Schema Parts where
  name := "FormatFields"
  initial := ⟨0, 0, true, .down, .wrap⟩
  fields :=
    [⟨"width", true, fun r => do
        let n ← r.natural "u32" (2 ^ (32 : Nat) - 1)
        return ({ · with width := n })⟩,
      ⟨"integer", true, fun r => do
        let n ← r.integer "i32" (-2 ^ (31 : Nat)) (2 ^ (31 : Nat) - 1)
        return ({ · with integer := n })⟩,
      ⟨"signed", false, fun r => do
        let b ← r.bool
        return ({ · with isSigned := b })⟩,
      ⟨"rounding", false, fun r => do
        let mode ← Rounding.ofJson r
        return ({ · with rounding := mode })⟩,
      ⟨"overflow", false, fun r => do
        let mode ← Overflow.ofJson r
        return ({ · with overflow := mode })⟩]

/-- The precision of the parts, if it is admitted. -/
def ofParts (parts : Parts) : Except Fault Precision :=
  ofModes parts.width parts.integer parts.isSigned parts.rounding parts.overflow

/-- Read a precision. -/
def ofJson (r : Reading) : Except ReadFault Precision := do
  match ofParts (← schema.read r) with
  | .ok p => return p
  | .error fault => .error (.misfit (.refused fault.message))

/-- Write a precision. -/
def toJson (p : Precision) : Value :=
  .object [("width", .integer p.width), ("integer", .integer p.integer),
    ("signed", .bool p.isSigned), ("rounding", p.rounding.toJson),
    ("overflow", p.overflow.toJson)]

end Precision

end Depthwise
