import Depthwise.Binary
import Depthwise.Fault
import Depthwise.Json.Decode

/-!
# Loosely typed arguments

Arguments come by name, without declared types.  Each parameter takes what it can hold: a truth
value counts as an integer and an integer as a real, while a value of another kind or an integer
outside the parameter's range is refused.  Names are looked at before any value.
-/

namespace Depthwise.Reference

-- Powers are those of the core library, whatever else is imported.
attribute [local instance (high)] instPowNat

/-- A value given for a parameter. -/
inductive Argument where
  | none
  | bool (b : Bool)
  | integer (n : Int)
  | real (x : Float)
  | text (s : String)
  | list (items : List Argument)
  | tuple (items : List Argument)
  | other
  deriving Inhabited

/-- Why a call is refused. -/
inductive CallFault where
  /-- A value, a name or a number of arguments that the parameters do not admit. -/
  | wrongKind
  /-- An integer that the parameter cannot hold. -/
  | outOfRange
  | tupleLength (expected actual : Nat)
  /-- A configuration text that does not read, and where it first fails. -/
  | badConfig (fault : Json.ReadFault)
  | refused (fault : Fault)

/-- The wording of a fault, where it has one, without its detail. -/
def CallFault.message? : CallFault → Option String
  | wrongKind => Option.none
  | outOfRange => Option.none
  | tupleLength expected actual =>
    some s!"expected tuple of length {expected}, but got tuple of length {actual}"
  | badConfig _ => some "invalid layer config"
  | refused fault => some fault.message

/-- The wording of a fault with its detail: a configuration text that is JSON but no configuration is
refused in the words of its misfit, which the place in the text follows. -/
def CallFault.detailed? : CallFault → Option String
  | badConfig (.misfit misfit) => some s!"invalid layer config: {misfit.message}"
  | fault => fault.message?

/-- Arguments by name. -/
abbrev Arguments := List (String × Argument)

/-- The parameters of a call: their names, and whether they must be given. -/
abbrev Parameters := List (String × Bool)

/-- Every name is known and nothing required is missing. -/
def Arguments.fit (given : Arguments) (parameters : Parameters) : Except CallFault Unit :=
  if given.all (fun a => parameters.any (·.1 == a.1)) &&
      parameters.all (fun p => !p.2 || given.any (·.1 == p.1)) then .ok ()
  else .error .wrongKind

/-- The argument of that name, read, or the default. -/
def Arguments.get {α : Type} (given : Arguments) (name : String) (default : α)
    (read : Argument → Except CallFault α) : Except CallFault α :=
  match given.lookup name with
  | some a => read a
  | Option.none => .ok default

namespace Argument

/-- An integer between `lo` and `hi`. -/
def integerIn (lo hi : Int) (a : Argument) : Except CallFault Int :=
  let check (n : Int) : Except CallFault Int :=
    if lo ≤ n ∧ n ≤ hi then .ok n else .error .outOfRange
  match a with
  | integer n => check n
  | bool b => check (if b then 1 else 0)
  | _ => .error .wrongKind

/-- A natural number of at most `bits` bits. -/
def natural (bits : Nat) (a : Argument) : Except CallFault Nat :=
  (a.integerIn 0 (2 ^ bits - 1)).map Int.toNat

/-- A signed integer of at most `bits` bits. -/
def signedInteger (bits : Nat) (a : Argument) : Except CallFault Int :=
  a.integerIn (-2 ^ (bits - 1)) (2 ^ (bits - 1) - 1)

/-- A real; an integer is rounded to the nearest, and must not round to infinity. -/
def toReal : Argument → Except CallFault Float
  | real x => .ok x
  | bool b => .ok (if b then 1 else 0)
  | integer n =>
    let x := Binary.toFloat (.ofInt n)
    if x.isInf then .error .outOfRange else .ok x
  | _ => .error .wrongKind

def toText : Argument → Except CallFault String
  | text s => .ok s
  | _ => .error .wrongKind

/-- `none`, or a value. -/
def optional {α : Type} (read : Argument → Except CallFault α) :
    Argument → Except CallFault (Option α)
  | none => .ok Option.none
  | a => (read a).map some

/-- A sequence of values of one kind. -/
def many {α : Type} (read : Argument → Except CallFault α) :
    Argument → Except CallFault (Array α)
  | list items => (items.mapM read).map List.toArray
  | tuple items => (items.mapM read).map List.toArray
  | _ => .error .wrongKind

/-- A pair of counts. -/
def pair : Argument → Except CallFault (Nat × Nat)
  | tuple [a, b] => do return (← a.natural 64, ← b.natural 64)
  | tuple items => .error (.tupleLength 2 items.length)
  | _ => .error .wrongKind

/-- Three counts. -/
def triple : Argument → Except CallFault (Nat × Nat × Nat)
  | tuple [a, b, c] => do return (← a.natural 64, ← b.natural 64, ← c.natural 64)
  | tuple items => .error (.tupleLength 3 items.length)
  | _ => .error .wrongKind

end Argument

end Depthwise.Reference
