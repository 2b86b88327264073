import Depthwise.Json.Number
import Depthwise.Json.Value

/-!
# What a JSON text reads as

A text is read once, from left to right, into a tree that goes as far as the text is JSON: where it
stops being so, the last branch says why.  A consumer walks the tree in the same order and so meets
the first fault of either kind, a value that does not fit it or the place where the text breaks
(`Depthwise.Json.Decode`).  What a consumer does not want it **skips**; skipping is laxer than
reading (`Reading.skip`).
-/

namespace Depthwise.Json

/-- The three words. -/
inductive Word where
  | null
  | bool (b : Bool)
  deriving DecidableEq, Repr

/-- A value as far as it could be read. -/
inductive Reading where
  /-- The text ends before the value. -/
  | missing
  /-- A character that starts no value. -/
  | unexpected
  | word (w : Except Break Word)
  /-- A numeral, and what is wrong with it when it is skipped. -/
  | number (n : Except Break Number) (skipped : Option Break)
  /-- A text, and what is wrong with it when it is skipped. -/
  | text (s : Except Break String) (skipped : Option Break)
  /-- The items, and what stands in place of the closing bracket. -/
  | array (items : List Reading) (stop : Option Break)
  /-- The members, and what stands in place of the closing brace. -/
  | object (members : List (Reading × Reading)) (stop : Option Break)

/-- A reading and the text after it. -/
structure Read (α : Type) where
  value : α
  rest : Except Break (List Char)

/-- The break of an outcome, if it is one. -/
def breakOf {α : Type} : Except Break α → Option Break
  | .error b => some b
  | .ok _ => none

/-- The word `name` at the start of a text. -/
def readWord (w : Word) (name : List Char) (cs : List Char) : Read Reading :=
  match word name cs with
  | .ok rest => ⟨.word (.ok w), .ok rest⟩
  | .error b => ⟨.word (.error b), .error b⟩

/-- The number at the start of a text.  A numeral cut short is malformed when it is skipped. -/
def readNumber (cs : List Char) : Read Reading :=
  match Numeral.scan cs with
  | .ok (n, rest) => ⟨.number n.value none, .ok rest⟩
  | .error b => ⟨.number (.error b) (some .malformed), .error .malformed⟩

/-- The text at the start of a text, its opening quote having been passed. -/
def readText (cs : List Char) : Read Reading :=
  let q := Quoted.scan cs
  ⟨.text (q.contents.map String.ofList) (breakOf q.rest), q.rest⟩

mutual

/-- The value at the start of a text.  Every container uses up a character and two nested calls, so
`Reading.ofText` allows two calls for each character. -/
def readValue (fuel : Nat) (cs : List Char) : Read Reading :=
  match fuel with
  | 0 => ⟨.missing, .error .cutShort⟩
  | fuel + 1 =>
    match skipBlanks cs with
    | [] => ⟨.missing, .error .cutShort⟩
    | c :: rest =>
      if c = 'n' then readWord .null "null".toList (c :: rest)
      else if c = 't' then readWord (.bool true) "true".toList (c :: rest)
      else if c = 'f' then readWord (.bool false) "false".toList (c :: rest)
      else if c = '-' ∨ c.isDigit then readNumber (c :: rest)
      else if c = '"' then readText rest
      else if c = '[' then
        match skipBlanks rest with
        | [] => ⟨.array [] (some .cutShort), .error .cutShort⟩
        | ']' :: rest => ⟨.array [] none, .ok rest⟩
        | rest =>
          let r := readItems fuel rest
          ⟨.array r.value (breakOf r.rest), r.rest⟩
      else if c = '\x7b' then
        match skipBlanks rest with
        | [] => ⟨.object [] (some .cutShort), .error .cutShort⟩
        | '\x7d' :: rest => ⟨.object [] none, .ok rest⟩
        | rest =>
          let r := readMembers fuel rest
          ⟨.object r.value (breakOf r.rest), r.rest⟩
      else ⟨.unexpected, .error .malformed⟩

/-- The items of an array from its first or a later item on.  A comma promises another item. -/
def readItems (fuel : Nat) (cs : List Char) : Read (List Reading) :=
  match fuel with
  | 0 => ⟨[], .error .cutShort⟩
  | fuel + 1 =>
    let item := readValue fuel cs
    match item.rest.map skipBlanks with
    | .error b => ⟨[item.value], .error b⟩
    | .ok [] => ⟨[item.value], .error .cutShort⟩
    | .ok (']' :: rest) => ⟨[item.value], .ok rest⟩
    | .ok (',' :: rest) =>
      let r := readItems fuel rest
      ⟨item.value :: r.value, r.rest⟩
    | .ok _ => ⟨[item.value], .error .malformed⟩

/-- The members of an object from its first or a later member on.  A comma promises another
member; a member without its colon lacks its value. -/
def readMembers (fuel : Nat) (cs : List Char) : Read (List (Reading × Reading)) :=
  match fuel with
  | 0 => ⟨[], .error .cutShort⟩
  | fuel + 1 =>
    match skipBlanks cs with
    | '"' :: rest =>
      let key := readText rest
      match key.rest.map skipBlanks with
      | .error b => ⟨[(key.value, .missing)], .error b⟩
      | .ok [] => ⟨[(key.value, .missing)], .error .cutShort⟩
      | .ok (':' :: rest) =>
        let v := readValue fuel rest
        match v.rest.map skipBlanks with
        | .error b => ⟨[(key.value, v.value)], .error b⟩
        | .ok [] => ⟨[(key.value, v.value)], .error .cutShort⟩
        | .ok ('\x7d' :: rest) => ⟨[(key.value, v.value)], .ok rest⟩
        | .ok (',' :: rest) =>
          let r := readMembers fuel rest
          ⟨(key.value, v.value) :: r.value, r.rest⟩
        | .ok _ => ⟨[(key.value, v.value)], .error .malformed⟩
      | .ok _ => ⟨[(key.value, .unexpected)], .error .malformed⟩
    | [] => ⟨[(.missing, .missing)], .error .cutShort⟩
    | _ => ⟨[(.unexpected, .missing)], .error .malformed⟩

end

/-! ### Skipping -/

mutual

/-- The first thing wrong with a value that is only skipped. -/
def Reading.skip : Reading → Option Break
  | .missing => some .cutShort
  | .unexpected => some .malformed
  | .word w => breakOf w
  | .number _ skipped => skipped
  | .text _ skipped => skipped
  | .array items stop => (skipItems items).or stop
  | .object members stop => (skipMembers members).or stop

def skipItems : List Reading → Option Break
  | [] => none
  | v :: vs => v.skip.or (skipItems vs)

def skipMembers : List (Reading × Reading) → Option Break
  | [] => none
  | (k, v) :: ms =>
    match k with
    | .text _ skipped => (skipped.or v.skip).or (skipMembers ms)
    | .missing => some .cutShort
    | _ => some .malformed

end

/-! ### Whole texts and written values -/

/-- The reading of a text and what follows the value. -/
def Reading.ofText (s : String) : Read Reading := readValue (2 * s.toList.length + 2) s.toList

mutual

/-- How a written value reads. -/
def Value.reading : Value → Reading
  | .null => .word (.ok .null)
  | .bool b => .word (.ok (.bool b))
  | .integer n => .number (.ok (if 0 ≤ n then .natural n.toNat else .negative n)) none
  | .text s => .text (.ok s) none
  | .array items => .array (itemReadings items) none
  | .object members => .object (memberReadings members) none

def itemReadings : List Value → List Reading
  | [] => []
  | v :: vs => v.reading :: itemReadings vs

def memberReadings : List (String × Value) → List (Reading × Reading)
  | [] => []
  | (k, v) :: ms => (.text (.ok k) none, v.reading) :: memberReadings ms

end

end Depthwise.Json
