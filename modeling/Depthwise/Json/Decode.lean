import Depthwise.Decimal.Layout
import Depthwise.Json.Reading
import Depthwise.Text.Quoted

/-!
# Reading values of a known type

Decoders walk a reading from left to right and report the first fault: a **break**, where the text
is not JSON, or a **misfit**, where it is JSON but does not fit the type.

A record (`Schema.read`) is written as an object or as the array of its fields in order.  Unknown
members of an object are skipped; a repeated field is refused where its name stands, a missing one
after the closing brace, the first in field order.  An array may stop before fields that are
optional and must not go on behind the last.  An enumeration (`Reading.choice`) is written as a
name or as an object with that name as its one key and `null` as its value.
-/

namespace Depthwise.Json

/-- What was found where something else is expected. -/
inductive Found where
  | null
  | bool (b : Bool)
  | integer (n : Int)
  | real (bits : UInt64)
  | text (s : String)
  | sequence
  | map
  deriving DecidableEq, Repr

/-- Why a value does not fit its type. -/
inductive Misfit where
  | invalidType (found : Found) (expected : String)
  | invalidValue (found : Found) (expected : String)
  | unknownVariant (name : String) (variants : List String)
  | missingField (name : String)
  | duplicateField (name : String)
  | invalidLength (length : Nat) (expected : String)
  /-- The parts fit but the whole is refused. -/
  | refused (reason : String)
  deriving DecidableEq, Repr

/-- The first fault of a text that is read. -/
inductive ReadFault where
  | broken (b : Break)
  | misfit (m : Misfit)
  deriving DecidableEq, Repr

/-! ### Wording -/

/-- What was found, in words; reals are in the scientific layout. -/
def Found.words : Found → String
  | .null => "null"
  | .bool b => s!"boolean `{b}`"
  | .integer n => s!"integer `{n}`"
  | .real bits =>
    let decimal := Decimal.write .even Decimal.scientific (Binary.double.decode bits.toNat)
    s!"floating point `{decimal}`"
  | .text s => s!"string {Text.quoted s}"
  | .sequence => "sequence"
  | .map => "map"

/-- The alternatives of an enumeration, in words. -/
def alternatives : List String → String
  | [] => "there are no variants"
  | [a] => s!"expected `{a}`"
  | [a, b] => s!"expected `{a}` or `{b}`"
  | names => "expected one of " ++ ", ".intercalate (names.map fun n => s!"`{n}`")

/-- The wording of a misfit. -/
def Misfit.message : Misfit → String
  | .invalidType found expected => s!"invalid type: {found.words}, expected {expected}"
  | .invalidValue found expected => s!"invalid value: {found.words}, expected {expected}"
  | .unknownVariant name variants => s!"unknown variant `{name}`, {alternatives variants}"
  | .missingField name => s!"missing field `{name}`"
  | .duplicateField name => s!"duplicate field `{name}`"
  | .invalidLength length expected => s!"invalid length {length}, expected {expected}"
  | .refused reason => reason

/-! ### Scalars -/

namespace Reading

/-- The outcome that a broken part forces. -/
def lift {α : Type} : Except Break α → Except ReadFault α
  | .ok a => .ok a
  | .error b => .error (.broken b)

/-- What stands here, or why nothing does. -/
def found : Reading → Except Break Found
  | missing => .error .cutShort
  | unexpected => .error .malformed
  | word w => w.map fun | .null => .null | .bool b => .bool b
  | number n _ => n.map fun
    | .natural n => .integer n
    | .negative n => .integer n
    | .real bits => .real bits
  | text s _ => s.map .text
  | array _ _ => .ok .sequence
  | object _ _ => .ok .map

/-- The fault of a value that is not of the expected type. -/
def mismatch (expected : String) (r : Reading) : ReadFault :=
  match r.found with
  | .ok found => .misfit (.invalidType found expected)
  | .error b => .broken b

/-- An integer between `lo` and `hi`. -/
def integer (expected : String) (lo hi : Int) (r : Reading) : Except ReadFault Int :=
  let check (n : Int) : Except ReadFault Int :=
    if lo ≤ n ∧ n ≤ hi then .ok n else .error (.misfit (.invalidValue (.integer n) expected))
  match r with
  | number (.ok (.natural n)) _ => check n
  | number (.ok (.negative n)) _ => check n
  | r => .error (r.mismatch expected)

/-- A natural number up to `hi`. -/
def natural (expected : String) (hi : Nat) (r : Reading) : Except ReadFault Nat :=
  (r.integer expected 0 hi).map Int.toNat

/-- A truth value. -/
def bool : Reading → Except ReadFault Bool
  | word (.ok (.bool b)) => .ok b
  | r => .error (r.mismatch "a boolean")

/-- A value or `null`. -/
def optional {α : Type} (read : Reading → Except ReadFault α) :
    Reading → Except ReadFault (Option α)
  | word (.ok .null) => .ok none
  | r => (read r).map some

/-- The name a key writes; a key must be a text, whatever is expected. -/
def name : Reading → Except ReadFault String
  | text s _ => lift s
  | missing => .error (.broken .cutShort)
  | _ => .error (.broken .malformed)

/-- The alternative of that name. -/
def variant {α : Type} (alternatives : List (String × α)) (name : String) : Except ReadFault α :=
  match alternatives.lookup name with
  | some a => .ok a
  | none => .error (.misfit (.unknownVariant name (alternatives.map (·.1))))

/-- One of the named alternatives. -/
def choice {α : Type} (alternatives : List (String × α)) : Reading → Except ReadFault α
  | missing => .error (.broken .cutShort)
  | text s _ => do variant alternatives (← lift s)
  | object [] stop => .error (.broken (stop.getD .malformed))
  | object ((key, value) :: more) stop => do
    let a ← variant alternatives (← key.name)
    match value with
    | word (.ok .null) => pure ()
    | value => .error (value.mismatch "unit")
    if more.isEmpty then
      match stop with
      | none => return a
      | some b => .error (.broken b)
    else .error (.broken .malformed)
  | _ => .error (.broken .malformed)

end Reading

/-! ### Records -/

/-- A field of a record under construction: its name, whether it must be given, and how its value
enters the record. -/
structure RecordField (σ : Type) where
  name : String
  required : Bool
  enter : Reading → Except ReadFault (σ → σ)

/-- A record type: its name, the record before any field is read, and its fields in order. -/
structure Schema (σ : Type) where
  name : String
  initial : σ
  fields : List (RecordField σ)

namespace Schema

variable {σ : Type} (schema : Schema σ)

/-- The type in words. -/
def expected : String := s!"struct {schema.name}"

/-- The type in words, with its size. -/
def expectedLength : String := s!"struct {schema.name} with {schema.fields.length} elements"

/-- Enter the members into `record`, the fields in `given` having been given before: the record and
all fields given. -/
def enterMembers : List (Reading × Reading) → List String → σ → Except ReadFault (σ × List String)
  | [], given, record => .ok (record, given)
  | (key, value) :: more, given, record => do
    let name ← key.name
    match schema.fields.find? (·.name == name) with
    | none =>
      -- an unknown member may hold anything that can be delimited
      match value.skip with
      | some b => .error (.broken b)
      | none => enterMembers more given record
    | some field =>
      -- a repeated field is refused before its value is looked at
      if given.contains name then .error (.misfit (.duplicateField name))
      else
        let set ← field.enter value
        enterMembers more (name :: given) (set record)

/-- The first required field that was not given. -/
def lacking (given : List String) : Option String :=
  (schema.fields.find? fun f => f.required && !given.contains f.name).map (·.name)

/-- Enter the items into `record` field by field, `index` of them having been entered before. -/
def enterItems (stop : Option Break) :
    List (RecordField σ) → List Reading → Nat → σ → Except ReadFault σ
  | [], [], _, record =>
    match stop with
    | none => .ok record
    | some b => .error (.broken b)
  | [], _ :: _, _, _ => .error (.broken .malformed)
  | field :: fields, [], index, record =>
    match stop with
    | some b => .error (.broken b)
    | none =>
      if field.required then .error (.misfit (.invalidLength index schema.expectedLength))
      else enterItems stop fields [] (index + 1) record
  | field :: fields, item :: items, index, record => do
    let set ← field.enter item
    enterItems stop fields items (index + 1) (set record)

/-- Read a record. -/
def read : Reading → Except ReadFault σ
  | .object members stop => do
    let (record, given) ← schema.enterMembers members [] schema.initial
    match stop, schema.lacking given with
    | some b, _ => .error (.broken b)
    | none, some name => .error (.misfit (.missingField name))
    | none, none => return record
  | .array items stop => schema.enterItems stop schema.fields items 0 schema.initial
  | r => .error (r.mismatch schema.expected)

end Schema

/-! ### Whole texts -/

/-- Read a whole text: the value first, then nothing but blanks. -/
def decode {α : Type} (read : Reading → Except ReadFault α) (s : String) : Except ReadFault α := do
  let r := Reading.ofText s
  let a ← read r.value
  match r.rest with
  | .error b => .error (.broken b)
  | .ok rest => if (skipBlanks rest).isEmpty then return a else .error (.broken .malformed)

end Depthwise.Json
