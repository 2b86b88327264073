import Depthwise.Fault
import Depthwise.Text.Blank

/-!
# Rounding

A quotient by a power of two is rounded to one of its two neighbouring integers.  Every mode takes
the **floor** or the integer above it, and decides by the remainder, the sign of the dividend and
the parity of the floor; an exact quotient is the same in all modes.
-/

namespace Depthwise

-- Powers are those of the core library, whatever else is imported.
attribute [local instance (high)] instPowNat

/-- How low-order bits are dropped. -/
inductive Rounding where
  /-- Toward negative infinity. -/
  | down
  /-- Toward zero. -/
  | towardZero
  /-- To nearest, ties toward positive infinity. -/
  | nearestUp
  /-- To nearest, ties toward zero. -/
  | nearestTowardZero
  /-- To nearest, ties away from zero. -/
  | nearestAway
  /-- To nearest, ties toward negative infinity. -/
  | nearestDown
  /-- To nearest, ties to even. -/
  | nearestEven
  deriving DecidableEq, Repr

namespace Rounding

/-- The modes in their usual order. -/
def all : List Rounding :=
  [down, towardZero, nearestUp, nearestTowardZero, nearestAway, nearestDown, nearestEven]

/-- The name of a mode in a precision. -/
def name : Rounding → String
  | down => "TRN"
  | towardZero => "TRN_ZERO"
  | nearestUp => "RND"
  | nearestTowardZero => "RND_ZERO"
  | nearestAway => "RND_INF"
  | nearestDown => "RND_MIN_INF"
  | nearestEven => "RND_CONV"

/-- The mode of that name. -/
def ofName? : String → Option Rounding
  | "TRN" => some down
  | "TRN_ZERO" => some towardZero
  | "RND" => some nearestUp
  | "RND_ZERO" => some nearestTowardZero
  | "RND_INF" => some nearestAway
  | "RND_MIN_INF" => some nearestDown
  | "RND_CONV" => some nearestEven
  | _ => none

/-- A mode is read from its name and from no other. -/
theorem ofName?_eq_some_iff {s : String} {mode : Rounding} :
    ofName? s = some mode ↔ mode.name = s := by
  constructor
  · intro h
    unfold ofName? at h
    split at h <;> cases h <;> rfl
  · rintro rfl
    cases mode <;> rfl

/-- Whether a quotient with floor `floor` and remainder `rem ≠ 0` is rounded up, `half` being half
the divisor and `negative` the sign of the dividend. -/
def roundsUp (mode : Rounding) (negative : Bool) (floor rem half : Int) : Bool :=
  match mode with
  | down => false
  | towardZero => negative
  | nearestUp => half ≤ rem
  | nearestTowardZero => half < rem || (rem == half && negative)
  | nearestAway => half < rem || (rem == half && !negative)
  | nearestDown => half < rem
  | nearestEven => half < rem || (rem == half && floor % 2 == 1)

/-- The furthest shift; a shift by more places drops only this many. -/
def maxShift : Nat := 126

/-- `raw / 2 ^ shift`, rounded. -/
def shiftRight (mode : Rounding) (raw : Int) (shift : Nat) : Int :=
  let places := min shift maxShift
  let floor := raw / 2 ^ places
  let rem := raw % 2 ^ places
  if rem = 0 then floor
  else if mode.roundsUp (raw < 0) floor rem (2 ^ (places - 1)) then floor + 1
  else floor

end Rounding

/-- The mode name in `cs`, blanks around it and one `AP_` or `AC_` before it being dropped. -/
def modeName (cs : List Char) : String :=
  match Text.trim cs with
  | 'A' :: 'P' :: '_' :: rest => String.ofList rest
  | 'A' :: 'C' :: '_' :: rest => String.ofList rest
  | rest => String.ofList rest

/-- Read a rounding mode. -/
def Rounding.read (cs : List Char) : Except Fault Rounding :=
  demand (.invalidPrecision .unknownRounding) (Rounding.ofName? (modeName cs))

end Depthwise
