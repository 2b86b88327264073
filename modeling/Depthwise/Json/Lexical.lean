/-!
# The lexical level of JSON

Blanks, words and texts.  A text between quotes is looked at in two ways: it is **delimited** even
when an escape in it names half of a surrogate pair, and only then **read**, which such an escape
forbids.  Everything skipped is only delimited.
-/

namespace Depthwise.Json

-- Sums are those of the core library, whatever else is imported.
attribute [local instance (high)] Zero.ofOfNat0

/-- Why a text is not JSON. -/
inductive Break where
  /-- The text ends where more is needed. -/
  | cutShort
  /-- A character cannot stand where it stands. -/
  | malformed
  deriving DecidableEq, Repr

/-- The four blanks. -/
def isBlank (c : Char) : Bool := c == ' ' || c == '\n' || c == '\t' || c == '\r'

/-- The text after its leading blanks. -/
def skipBlanks (cs : List Char) : List Char := cs.dropWhile isBlank

/-- The rest of a text after a word that must stand there. -/
def word : List Char → List Char → Except Break (List Char)
  | [], cs => .ok cs
  | _ :: _, [] => .error .cutShort
  | w :: ws, c :: cs => if c = w then word ws cs else .error .malformed

/-! ### Texts between quotes -/

/-- The value of a hexadecimal digit. -/
def hexValue? (c : Char) : Option Nat :=
  if '0' ≤ c ∧ c ≤ '9' then some (c.toNat - '0'.toNat)
  else if 'a' ≤ c ∧ c ≤ 'f' then some (c.toNat - 'a'.toNat + 10)
  else if 'A' ≤ c ∧ c ≤ 'F' then some (c.toNat - 'A'.toNat + 10)
  else none

/-- The value of four hexadecimal digits. -/
def hexQuad? (a b c d : Char) : Option Nat := do
  return (((← hexValue? a) * 16 + (← hexValue? b)) * 16 + (← hexValue? c)) * 16 + (← hexValue? d)

/-- What is wrong where four hexadecimal digits should stand: the text is cut short if fewer than
four octets are left, whatever they are. -/
def hexBreak (cs : List Char) : Break :=
  if ((cs.take 4).map Char.utf8Size).sum < 4 then .cutShort else .malformed

/-- The character a one-letter escape stands for. -/
def shortEscape? : Char → Option Char
  | '"' => some '"'
  | '\\' => some '\\'
  | '/' => some '/'
  | 'b' => some '\x08'
  | 'f' => some '\x0c'
  | 'n' => some '\n'
  | 'r' => some '\r'
  | 't' => some '\t'
  | _ => none

/-- A text between quotes: what it reads as, and what follows it. -/
structure Quoted where
  contents : Except Break (List Char)
  rest : Except Break (List Char)

namespace Quoted

/-- Neither read nor delimited. -/
def broken (b : Break) : Quoted := ⟨.error b, .error b⟩

/-- One more character in front. -/
def cons (c : Char) (q : Quoted) : Quoted := ⟨q.contents.map (c :: ·), q.rest⟩

/-- Delimited but not read. -/
def unread (b : Break) (q : Quoted) : Quoted := ⟨.error b, q.rest⟩

/-- What is wrong after the first half of a surrogate pair, when no second half follows. -/
def halfBreak : List Char → Break
  | [] => .cutShort
  | ['\\'] => .cutShort
  | '\\' :: 'u' :: cs => hexBreak cs
  | _ => .malformed

/-- The second half of a surrogate pair at the start of a text. -/
def secondHalf? : List Char → Option Nat
  | '\\' :: 'u' :: a :: b :: c :: d :: _ =>
    (hexQuad? a b c d).filter fun n => 0xDC00 ≤ n && n ≤ 0xDFFF
  | _ => none

/-- The text up to the closing quote, the opening one having been passed. -/
def scan : List Char → Quoted
  | [] => broken .cutShort
  | '\\' :: 'u' :: a :: b :: c :: d :: cs =>
    match hexQuad? a b c d with
    | none => broken (hexBreak [a, b, c, d])
    | some n =>
      if n < 0xD800 ∨ 0xDFFF < n then (scan cs).cons (Char.ofNat n)
      -- half a pair leaves the text unread, yet its closing quote is still found
      else if 0xDC00 ≤ n then (scan cs).unread .malformed
      else match secondHalf? cs with
        | some m =>
          (scan (cs.drop 6)).cons (Char.ofNat (0x10000 + (n - 0xD800) * 0x400 + (m - 0xDC00)))
        | none => (scan cs).unread (halfBreak cs)
  | '\\' :: 'u' :: cs => broken (hexBreak cs)
  | ['\\'] => broken .cutShort
  | '\\' :: e :: cs =>
    match shortEscape? e with
    | some c => (scan cs).cons c
    | none => broken .malformed
  | c :: cs =>
    if c = '"' then ⟨.ok [], .ok cs⟩
    else if c.toNat < 0x20 then broken .malformed
    else (scan cs).cons c
termination_by cs => cs.length
decreasing_by all_goals simp only [List.length_cons, List.length_drop]; omega

end Quoted

end Depthwise.Json
