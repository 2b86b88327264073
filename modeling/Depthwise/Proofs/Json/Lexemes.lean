import Depthwise.Json.Number
import Depthwise.Json.Value
import Depthwise.Proofs.Text.Numerals

/-!
# Written texts and numerals

The two lexical forms that are written are read for what they are, whatever text comes behind them.

* `Quoted.scan_flatMap_escape`: an escaped text is read up to its closing quote, character by
  character.
* `Numeral.scan_ofInt`, `Numeral.value_ofInt`: the digits of an integer are scanned as long as no
  numeral goes on with what comes behind (`Closes`), and are that integer if 64 bits hold it, with
  or without a sign.
-/

namespace Depthwise.Json

-- Powers are those of the core library, whatever else is imported.
attribute [local instance (high)] instPowNat

/-! ### Texts between quotes -/

/-- The four digits of a control character read as its number. -/
theorem hexQuad?_hexDigit : ∀ n < 0x20,
    hexQuad? '0' '0' (hexDigit (n / 16)) (hexDigit (n % 16)) = some n := by decide

namespace Quoted

variable {c : Char} (cs : List Char)

theorem scan_shortEscape {e : Char} (he : shortEscape? e = some c) :
    scan ('\\' :: e :: cs) = (scan cs).cons c := by
  have hu : e ≠ 'u' := by
    rintro rfl
    cases he
  rw [scan, he]
  · exact fun _ _ _ _ _ h => absurd h hu
  · exact fun h => absurd h hu

/-- A character that stands for itself. -/
theorem scan_cons (hquote : c ≠ '"') (hslash : c ≠ '\\') (hcontrol : ¬ c.toNat < 0x20) :
    scan (c :: cs) = (scan cs).cons c := by
  rw [scan, if_neg hquote, if_neg hcontrol]
  · exact fun _ _ _ _ _ h => absurd h hslash
  · exact fun _ h => absurd h hslash
  · exact fun h => absurd h hslash
  · exact fun _ _ h => absurd h hslash

/-- The closing quote. -/
theorem scan_quote : scan ('"' :: cs) = ⟨.ok [], .ok cs⟩ := by
  have hslash : '"' ≠ '\\' := by decide
  rw [scan, if_pos rfl]
  · exact fun _ _ _ _ _ h => absurd h hslash
  · exact fun _ h => absurd h hslash
  · exact fun h => absurd h hslash
  · exact fun _ _ h => absurd h hslash

/-- Whatever is written for a character reads as that character. -/
theorem scan_escape (c : Char) : scan (escape c ++ cs) = (scan cs).cons c := by
  unfold escape
  split
  · next h => subst h; exact scan_shortEscape cs rfl
  split
  · next h => subst h; exact scan_shortEscape cs rfl
  split
  · next h => subst h; exact scan_shortEscape cs rfl
  split
  · next h => subst h; exact scan_shortEscape cs rfl
  split
  · next h => subst h; exact scan_shortEscape cs rfl
  split
  · next h =>
    obtain rfl : '\x08' = c := Char.toNat_inj.mp h.symm
    exact scan_shortEscape cs rfl
  split
  · next h =>
    obtain rfl : '\x0c' = c := Char.toNat_inj.mp h.symm
    exact scan_shortEscape cs rfl
  split
  · next h =>
    -- the number is below the surrogates, so no second half is looked for
    have hplane : c.toNat < 0xD800 ∨ 0xDFFF < c.toNat := by omega
    show scan ('\\' :: 'u' :: '0' :: '0' :: hexDigit _ :: hexDigit _ :: cs) = _
    simp only [scan, hexQuad?_hexDigit _ h, if_pos hplane, Char.ofNat_toNat]
  · next hquote hslash _ _ _ _ _ hcontrol => exact scan_cons cs hquote hslash hcontrol

/-- **A written text is read**, and what is behind its closing quote is left. -/
theorem scan_flatMap_escape (s rest : List Char) :
    scan (s.flatMap escape ++ '"' :: rest) = ⟨.ok s, .ok rest⟩ := by
  induction s with
  | nil => exact scan_quote rest
  | cons c s ih =>
      rw [List.flatMap_cons, List.append_assoc, scan_escape, ih]
      rfl

end Quoted

/-! ### Numerals -/

/-- No numeral goes on with `rest`. -/
def Closes (rest : List Char) : Prop :=
  ∀ c ∈ rest.head?, c.isDigit = false ∧ c ≠ '.' ∧ c ≠ 'e' ∧ c ≠ 'E'

theorem closes_nil : Closes [] := nofun

theorem closes_cons {c : Char} {cs : List Char} (h : c = ',' ∨ c = ']' ∨ c = '\x7d') :
    Closes (c :: cs) := by
  rintro _ ⟨⟩
  rcases h with rfl | rfl | rfl <;> decide

namespace Numeral

theorem isDigit_ofNat (n : Nat) : ∀ c ∈ Text.ofNat n, c.isDigit = true :=
  (Text.digits?_eq_some_iff.mp (Text.digits?_ofNat n)).isDigit

theorem ofDigitChars_ofNat (n : Nat) : Nat.ofDigitChars 10 (Text.ofNat n) 0 = n :=
  (Text.digits?_eq_some_iff.mp (Text.digits?_ofNat n)).eq_ofDigitChars

theorem ofNat_ne_nil (n : Nat) : Text.ofNat n ≠ [] := Nat.toDigits_ne_nil

theorem exists_ofNat_eq_cons (n : Nat) : ∃ c cs, Text.ofNat n = c :: cs ∧ c.isDigit = true := by
  obtain ⟨c, cs, h⟩ := List.exists_cons_of_ne_nil (ofNat_ne_nil n)
  exact ⟨c, cs, h, isDigit_ofNat n c (h ▸ List.mem_cons_self)⟩

/-- A numeral begins with a minus sign or with a digit. -/
theorem exists_ofInt_eq_cons (n : Int) :
    ∃ c cs, Text.ofInt n = c :: cs ∧ (c = '-' ∨ c.isDigit = true) := by
  by_cases hn : n < 0
  · exact ⟨'-', _, if_pos hn, .inl rfl⟩
  · obtain ⟨c, cs, heq, hc⟩ := exists_ofNat_eq_cons n.natAbs
    exact ⟨c, cs, (if_neg hn).trans heq, .inr hc⟩

theorem digitChar_eq_zero : ∀ n < 10, n.digitChar = '0' → n = 0 := by decide

/-- Only zero begins with a zero. -/
theorem eq_zero_of_head? {n : Nat} (h : (Text.ofNat n).head? = some '0') : n = 0 := by
  induction n using Nat.strongRecOn with
  | ind n ih =>
      rcases Nat.lt_or_ge n 10 with hn | hn
      · rw [Text.ofNat, Nat.toDigits_of_lt_base hn] at h
        exact digitChar_eq_zero n hn (Option.some.inj h)
      · rw [Text.ofNat, Nat.toDigits_of_base_le (by decide) hn,
          List.head?_append_of_ne_nil _ Nat.toDigits_ne_nil] at h
        have hzero := ih (n / 10) (by omega) h
        omega

variable {rest : List Char} (hrest : Closes rest)

include hrest

theorem digits_append {ds : List Char} (hne : ds ≠ []) (hds : ∀ c ∈ ds, c.isDigit = true) :
    digits (ds ++ rest) = .ok (ds, rest) := by
  have hstop : rest.takeWhile Char.isDigit = [] ∧ rest.dropWhile Char.isDigit = rest := by
    cases rest with
    | nil => exact ⟨rfl, rfl⟩
    | cons c cs =>
        have hc : c.isDigit = false := (hrest c rfl).1
        simp [hc]
  unfold digits
  rw [List.takeWhile_append_of_pos hds, List.dropWhile_append_of_pos hds, hstop.1, hstop.2,
    List.append_nil]
  split
  · contradiction
  · rfl

/-- The digits of a number have no leading zero. -/
theorem wholeDigits_ofNat (n : Nat) :
    wholeDigits (Text.ofNat n ++ rest) = .ok (Text.ofNat n, rest) := by
  have hlead : ¬ ((Text.ofNat n).head? = some '0' ∧ 1 < (Text.ofNat n).length) := by
    rintro ⟨hzero, hlength⟩
    rw [eq_zero_of_head? hzero] at hlength
    exact absurd hlength (by decide)
  rw [wholeDigits, digits_append hrest (ofNat_ne_nil n) (isDigit_ofNat n)]
  exact if_neg hlead

theorem fractionDigits_of_closes : fractionDigits rest = .ok (none, rest) := by
  unfold fractionDigits
  split
  · exact absurd rfl (hrest '.' rfl).2.1
  · rfl

theorem exponentDigits_of_closes : exponentDigits rest = .ok (none, rest) := by
  cases rest with
  | nil => rfl
  | cons c cs =>
      have he : ¬ (c = 'e' ∨ c = 'E') := not_or.mpr (hrest c rfl).2.2
      unfold exponentDigits
      exact if_neg he

/-- Once the sign is read, the digits are all there is to a numeral. -/
theorem scan_digits (negative : Bool) (n : Nat) :
    (do
      let (whole, rest) ← wholeDigits (Text.ofNat n ++ rest)
      let (fraction, rest) ← fractionDigits rest
      let (exponent, rest) ← exponentDigits rest
      return (⟨negative, whole, fraction, exponent⟩, rest) : Except Break (Numeral × List Char)) =
      .ok (⟨negative, Text.ofNat n, none, none⟩, rest) := by
  simp only [wholeDigits_ofNat hrest, fractionDigits_of_closes hrest,
    exponentDigits_of_closes hrest, bind, Except.bind, pure, Except.pure]

/-- **The numeral of an integer is scanned** as its sign and its digits. -/
theorem scan_ofInt (n : Int) :
    scan (Text.ofInt n ++ rest) =
      .ok (⟨decide (n < 0), Text.ofNat n.natAbs, none, none⟩, rest) := by
  unfold scan
  by_cases hn : n < 0
  · rw [Text.ofInt, if_pos hn, decide_eq_true hn]
    exact scan_digits hrest true _
  · rw [Text.ofInt, if_neg hn, decide_eq_false hn]
    split
    next negative unsigned heq =>
    split at heq
    · next hcons =>
      -- the first digit is no minus sign
      obtain ⟨c, cs, hcs, hc⟩ := exists_ofNat_eq_cons n.natAbs
      rw [hcs] at hcons
      cases hcons
      cases hc
    · cases heq
      exact scan_digits hrest false _

omit hrest

theorem le_ofDigitChars (cs : List Char) (n : Nat) : n ≤ Nat.ofDigitChars 10 cs n := by
  induction cs generalizing n with
  | nil => exact Nat.le_refl n
  | cons c cs ih =>
      have hle := ih (10 * n + (c.toNat - '0'.toNat))
      rw [Nat.ofDigitChars_cons]
      omega

/-- Where a number fits, all its digits are gathered. -/
theorem gather_eq {cs : List Char} {n : Nat} (h : Nat.ofDigitChars 10 cs n ≤ gatherLimit) :
    gather n cs = (Nat.ofDigitChars 10 cs n, []) := by
  induction cs generalizing n with
  | nil => rfl
  | cons c cs ih =>
      rw [Nat.ofDigitChars_cons, Nat.mul_comm] at h ⊢
      have hnext := (le_ofDigitChars cs _).trans h
      rw [gather]
      simp only [if_pos hnext, ih h]

/-- **The numeral of an integer is that integer**, if it is one of 64 bits. -/
theorem value_ofInt {n : Int} (hlo : -2 ^ (63 : Nat) ≤ n) (hhi : n ≤ gatherLimit) :
    value ⟨decide (n < 0), Text.ofNat n.natAbs, none, none⟩ =
      .ok (if 0 ≤ n then .natural n.toNat else .negative n) := by
  have hfit : n.natAbs ≤ gatherLimit := by
    unfold gatherLimit at *
    omega
  have hgather : gather 0 (Text.ofNat n.natAbs) = (n.natAbs, []) := by
    rw [gather_eq (by rwa [ofDigitChars_ofNat]), ofDigitChars_ofNat]
  simp only [value, hgather]
  by_cases hn : n < 0
  · have hle : n.natAbs ≤ 2 ^ (63 : Nat) := by omega
    have hpos : 0 < n.natAbs := by omega
    have hneg : -(n.natAbs : Int) = n := by omega
    rw [decide_eq_true hn, if_neg (Int.not_le.mpr hn), if_pos ⟨rfl, rfl, rfl, .inr ⟨hpos, hle⟩⟩,
      if_pos rfl, hneg]
  · have hnat : n.natAbs = n.toNat := by omega
    rw [decide_eq_false hn, if_pos (Int.not_lt.mp hn), if_pos ⟨rfl, rfl, rfl, .inl rfl⟩,
      if_neg Bool.false_ne_true, hnat]

end Numeral

end Depthwise.Json
