import Depthwise.Fixed.Precision
import Depthwise.Text.Numeral

/-!
# The written form of a precision

`fixed<W,I>` is a signed format of `W` bits, `I` of them before the point, and `ufixed<W,I>` an
unsigned one; both names may carry `ap_` in front.  A rounding mode and then an overflow mode may
follow the two numbers.  Blanks are dropped around the text, the name and each parameter.

`Precision.parse` reports the first thing wrong from left to right, except that the closing bracket
is looked for before the name; `Precision.spell` writes all four parameters.
-/

namespace Depthwise.Precision

-- Powers are those of the core library, whatever else is imported.
attribute [local instance (high)] instPowNat

/-- The texts before and after the first `sep`. -/
def cut (sep : Char) : List Char → Option (List Char × List Char)
  | [] => none
  | c :: cs =>
    if c = sep then some ([], cs) else (cut sep cs).map fun r => (c :: r.1, r.2)

/-- The text without its closing bracket. -/
def unclose (cs : List Char) : Option (List Char) :=
  if cs.getLast? = some '>' then some cs.dropLast else none

/-- Whether a format name is of the signed kind. -/
def signedness? (cs : List Char) : Option Bool :=
  match String.ofList cs with
  | "fixed" | "ap_fixed" => some true
  | "ufixed" | "ap_ufixed" => some false
  | _ => none

/-- A width, as an unsigned 32-bit number. -/
def width? (cs : List Char) : Option Nat :=
  (Text.natural? cs).filter (· < 2 ^ (32 : Nat))

/-- A number of integer bits, as a signed 32-bit number. -/
def integer? (cs : List Char) : Option Int :=
  (Text.integer? cs).filter fun n => -2 ^ (31 : Nat) ≤ n && n < 2 ^ (31 : Nat)

/-- The modes among the parameters that follow the two numbers. -/
def modes : List (List Char) → Except Fault (Rounding × Overflow)
  | [] => .ok (.down, .wrap)
  | [q] => do return (← Rounding.read q, .wrap)
  | [q, o] => do return (← Rounding.read q, ← Overflow.read o)
  | q :: o :: _ :: _ => do
    let _ ← Rounding.read q
    let _ ← Overflow.read o
    .error (.invalidPrecision .tooManyParameters)

/-- Read a precision. -/
def parse (s : String) : Except Fault Precision := do
  let (head, rest) ← demand (.invalidPrecision .unopened) (cut '<' (Text.trim s.toList))
  let body ← demand (.invalidPrecision .unclosed) (unclose rest)
  let isSigned ← demand (.invalidPrecision .unknownKind) (signedness? (Text.trim head))
  let parameters := (body.splitOn ',').map Text.trim
  let width ← demand (.invalidPrecision .badWidth) (parameters[0]?.bind width?)
  let integer ← demand (.invalidPrecision .badInteger) (parameters[1]?.bind integer?)
  let (rounding, overflow) ← modes (parameters.drop 2)
  ofModes width integer isSigned rounding overflow

/-- The characters of the written form. -/
def spellChars (p : Precision) : List Char :=
  (if p.isSigned then "fixed<" else "ufixed<").toList ++ Text.ofNat p.width ++
    ',' :: Text.ofInt p.integer ++ ',' :: p.rounding.name.toList ++
    ',' :: p.overflow.name.toList ++ ['>']

/-- Write a precision with all its parameters. -/
def spell (p : Precision) : String := String.ofList p.spellChars

end Depthwise.Precision
