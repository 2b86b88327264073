import Depthwise.Proofs.Text.Trimmed
import Depthwise.Text.Numeral
import Mathlib.Data.List.Induction

/-!
# Numerals

A decimal text is a digit, or a decimal text with one more digit behind it, which makes ten of each
unit before (`Decimal`).  An unsigned numeral may have a plus sign in front, a signed one either
sign.  These are the texts read as numbers, each as the number it denotes (`natural?_eq_some_iff`,
`integer?_eq_some_iff`); no other text is.
-/

namespace Depthwise.Text

theorem ofDigitChars_concat (cs : List Char) (c : Char) :
    Nat.ofDigitChars 10 (cs ++ [c]) 0 = 10 * Nat.ofDigitChars 10 cs 0 + (c.toNat - '0'.toNat) := by
  simp only [Nat.ofDigitChars, List.foldl_append, List.foldl_cons, List.foldl_nil]

/-- The text `cs` of decimal digits denotes `n`. -/
inductive Decimal : List Char → Nat → Prop
  | digit {c : Char} : c.isDigit = true → Decimal [c] (c.toNat - '0'.toNat)
  | snoc {cs : List Char} {n : Nat} {c : Char} : Decimal cs n → c.isDigit = true →
      Decimal (cs ++ [c]) (10 * n + (c.toNat - '0'.toNat))

/-- The text `cs` denotes the natural number `n`, a plus sign being allowed. -/
inductive Unsigned : List Char → Nat → Prop
  | bare {cs : List Char} {n : Nat} : Decimal cs n → Unsigned cs n
  | plus {cs : List Char} {n : Nat} : Decimal cs n → Unsigned ('+' :: cs) n

/-- The text `cs` denotes the integer `i`, either sign being allowed. -/
inductive Signed : List Char → Int → Prop
  | unsigned {cs : List Char} {n : Nat} : Unsigned cs n → Signed cs n
  | minus {cs : List Char} {n : Nat} : Decimal cs n → Signed ('-' :: cs) (-n)

theorem Decimal.ne_nil {cs : List Char} {n : Nat} (h : Decimal cs n) : cs ≠ [] := by
  cases h <;> simp

theorem Decimal.isDigit {cs : List Char} {n : Nat} (h : Decimal cs n) :
    ∀ c ∈ cs, c.isDigit = true := by
  induction h with
  | digit hc => simpa using hc
  | snoc _ hc ih =>
      intro d hd
      rcases List.mem_append.mp hd with hd | hd
      · exact ih d hd
      · rwa [List.mem_singleton.mp hd]

theorem Decimal.eq_ofDigitChars {cs : List Char} {n : Nat} (h : Decimal cs n) :
    Nat.ofDigitChars 10 cs 0 = n := by
  induction h with
  | digit => simp [Nat.ofDigitChars]
  | snoc _ _ ih => rw [ofDigitChars_concat, ih]

/-- Every text of digits denotes a number. -/
theorem decimal_ofDigitChars {cs : List Char} (hne : cs ≠ [])
    (hdigits : ∀ c ∈ cs, c.isDigit = true) : Decimal cs (Nat.ofDigitChars 10 cs 0) := by
  induction cs using List.reverseRecOn with
  | nil => exact absurd rfl hne
  | append_singleton cs c ih =>
      have hc := hdigits c (by simp)
      rcases eq_or_ne cs [] with rfl | hcs
      · simpa [Nat.ofDigitChars] using Decimal.digit hc
      · have hprev := ih hcs fun d hd => hdigits d (List.mem_append_left _ hd)
        rw [ofDigitChars_concat]
        exact .snoc hprev hc

theorem digits?_eq_some_iff {cs : List Char} {n : Nat} : digits? cs = some n ↔ Decimal cs n := by
  unfold digits?
  constructor
  · intro h
    split at h
    · next hcs =>
      obtain rfl := Option.some.inj h
      exact decimal_ofDigitChars hcs.1 (List.all_eq_true.mp hcs.2)
    · cases h
  · intro h
    rw [if_pos ⟨h.ne_nil, List.all_eq_true.mpr h.isDigit⟩, h.eq_ofDigitChars]

/-- A sign is no digit. -/
theorem not_decimal_cons {c : Char} (hc : c.isDigit = false) {cs : List Char} {n : Nat} :
    ¬ Decimal (c :: cs) n := by
  intro h
  have := h.isDigit c List.mem_cons_self
  rw [hc] at this
  cases this

theorem natural?_eq_some_iff {cs : List Char} {n : Nat} :
    natural? cs = some n ↔ Unsigned cs n := by
  unfold natural?
  split
  · next cs =>
    rw [digits?_eq_some_iff]
    constructor
    · exact .plus
    · intro h
      cases h with
      | bare h => exact absurd h (not_decimal_cons rfl)
      | plus h => exact h
  · next hplus =>
    rw [digits?_eq_some_iff]
    constructor
    · exact .bare
    · intro h
      cases h with
      | bare h => exact h
      | plus h => exact absurd rfl (hplus _)

theorem integer?_eq_some_iff {cs : List Char} {i : Int} :
    integer? cs = some i ↔ Signed cs i := by
  unfold integer?
  split
  · next cs =>
    simp only [Option.map_eq_some_iff, Option.bind_eq_bind, Option.bind_eq_some_iff]
    constructor
    · rintro ⟨_, ⟨n, hn, hcast⟩, rfl⟩
      cases hcast
      exact .minus (digits?_eq_some_iff.mp hn)
    · intro h
      cases h with
      | unsigned h =>
          cases h with
          | bare h => exact absurd h (not_decimal_cons rfl)
      | minus h => exact ⟨_, ⟨_, digits?_eq_some_iff.mpr h, rfl⟩, rfl⟩
  · next hminus =>
    simp only [Option.map_eq_some_iff, Option.bind_eq_bind, Option.bind_eq_some_iff]
    constructor
    · rintro ⟨_, ⟨n, hn, hcast⟩, rfl⟩
      cases hcast
      exact .unsigned (natural?_eq_some_iff.mp hn)
    · intro h
      cases h with
      | unsigned h => exact ⟨_, ⟨_, natural?_eq_some_iff.mpr h, rfl⟩, rfl⟩
      | minus h => exact absurd rfl (hminus _)

/-! ### Written numerals -/

theorem unsigned_ofNat (n : Nat) : Unsigned (ofNat n) n :=
  .bare (digits?_eq_some_iff.mp (digits?_ofNat n))

/-- An integer denotes itself as it is written. -/
theorem signed_ofInt (i : Int) : Signed (ofInt i) i := by
  by_cases hi : i < 0
  · have hminus : Signed ('-' :: ofNat i.natAbs) (-i.natAbs) :=
      .minus (digits?_eq_some_iff.mp (digits?_ofNat _))
    have habs : -(i.natAbs : Int) = i := by omega
    rw [habs] at hminus
    rwa [ofInt, if_pos hi]
  · have hplain : Signed (ofNat i.natAbs) i.natAbs := .unsigned (unsigned_ofNat _)
    have habs : (i.natAbs : Int) = i := by omega
    rw [habs] at hplain
    rwa [ofInt, if_neg hi]

end Depthwise.Text
