import Depthwise.Fixed.Rounding

/-!
# Overflow

An integer outside the range `[lo, hi]` a format stores is replaced by one inside it.  **Wrapping**
keeps the low bits, **saturation** takes the nearer bound or a symmetric one, and one mode takes
zero; an integer in the range is never changed.
-/

namespace Depthwise

/-- What becomes of a value outside the storable range. -/
inductive Overflow where
  /-- Keep the low bits, as two's complement. -/
  | wrap
  /-- The nearer bound. -/
  | saturate
  /-- Zero. -/
  | zero
  /-- The nearer bound of the symmetric range `[-hi, hi]` of a signed format. -/
  | symmetric
  deriving DecidableEq, Repr

namespace Overflow

/-- The modes in their usual order. -/
def all : List Overflow := [wrap, saturate, zero, symmetric]

/-- The name of a mode in a precision. -/
def name : Overflow → String
  | wrap => "WRAP"
  | saturate => "SAT"
  | zero => "SAT_ZERO"
  | symmetric => "SAT_SYM"

/-- The mode of that name. -/
def ofName? : String → Option Overflow
  | "WRAP" => some wrap
  | "SAT" => some saturate
  | "SAT_ZERO" => some zero
  | "SAT_SYM" => some symmetric
  | _ => none

/-- A mode is read from its name and from no other. -/
theorem ofName?_eq_some_iff {s : String} {mode : Overflow} :
    ofName? s = some mode ↔ mode.name = s := by
  constructor
  · intro h
    unfold ofName? at h
    split at h <;> cases h <;> rfl
  · rintro rfl
    cases mode <;> rfl

/-- Read an overflow mode. -/
def read (cs : List Char) : Except Fault Overflow :=
  demand (.invalidPrecision .unknownOverflow) (ofName? (modeName cs))

end Overflow

end Depthwise
