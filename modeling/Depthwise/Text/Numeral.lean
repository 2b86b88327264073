/-!
# Decimal numerals

Natural numbers are written as ASCII digits, leading zeros allowed; a signed numeral may start with
one sign.  `natural?` and `integer?` read whole texts, so anything after the digits refuses the
text.
-/

namespace Depthwise.Text

/-- The natural number written by one or more ASCII digits. -/
def digits? (cs : List Char) : Option Nat :=
  if cs ≠ [] ∧ cs.all Char.isDigit = true then some (Nat.ofDigitChars 10 cs 0) else none

/-- The natural number written by digits, with an optional plus sign. -/
def natural? : List Char → Option Nat
  | '+' :: cs => digits? cs
  | cs => digits? cs

/-- The integer written by digits, with an optional sign. -/
def integer? : List Char → Option Int
  | '-' :: cs => (digits? cs).map fun n => -(n : Int)
  | cs => (natural? cs).map fun n => (n : Int)

/-- The digits of `n`, as many as it needs. -/
def ofNat (n : Nat) : List Char := Nat.toDigits 10 n

/-- The numeral of `i`, its minus sign first. -/
def ofInt (i : Int) : List Char := if i < 0 then '-' :: ofNat i.natAbs else ofNat i.natAbs

/-- A number reads back from its digits. -/
theorem digits?_ofNat (n : Nat) : digits? (ofNat n) = some n := by
  have h : ofNat n ≠ [] ∧ (ofNat n).all Char.isDigit = true :=
    ⟨Nat.toDigits_ne_nil, List.all_eq_true.mpr fun _ hc =>
      Nat.isDigit_of_mem_toDigits (by decide) (by decide) hc⟩
  rw [digits?, if_pos h]
  exact congrArg some Nat.ofDigitChars_ten_toDigits

end Depthwise.Text
