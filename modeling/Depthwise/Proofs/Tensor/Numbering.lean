import Depthwise.Proofs.Kernel.Words
import Mathlib.Data.Prod.Lex
import Mathlib.Data.Set.Function
import Mathlib.Data.Set.Prod
import Mathlib.Order.Interval.Set.Defs
import Mathlib.Tactic.Ring

/-!
# Layouts number their places

A layout that counts `n` elements numbers its coordinates from zero to below `n`, in their
lexicographic order (`Numbers`): coordinates that come first have the smaller offset, no two have
the same, and every offset below `n` is one.  On the way to an offset no sum and no product leaves
the machine words.

An offset is a numeral whose digits are the coordinates.  Putting one more digit in front of a
numbering of `k` places gives `n` blocks of `k` (`Numbers.blocks`), and this builds the offsets of a
map, of a bank and of the output channels from the last digit on.
-/

namespace Depthwise

/-! ### Numberings -/

/-- The places of `S`, which stand in the order `before`, are numbered by `offset` from zero to
below `n`. -/
structure Numbers {α : Type} (before : α → α → Prop) (S : Set α) (n : Nat) (offset : α → Nat) :
    Prop where
  lt_iff : ∀ a ∈ S, ∀ b ∈ S, offset a < offset b ↔ before a b
  bijOn : Set.BijOn offset S (Set.Iio n)

/-- Offsets in blocks are compared by block, and within one block by what is added. -/
theorem block_offset_lt_iff {k i j i' j' : Nat} (hj : j < k) (hj' : j' < k) :
    i * k + j < i' * k + j' ↔ i < i' ∨ i = i' ∧ j < j' := by
  rcases Nat.lt_trichotomy i i' with hlt | rfl | hgt
  · have hblock := block_offset_lt hlt hj
    omega
  · omega
  · have hblock := block_offset_lt hgt hj'
    omega

theorem block_offset_inj {k i j i' j' : Nat} (hj : j < k) (hj' : j' < k)
    (h : i * k + j = i' * k + j') : i = i' ∧ j = j' := by
  have hlt : ¬ (i < i' ∨ i = i' ∧ j < j') :=
    fun hbefore => absurd h (Nat.ne_of_lt ((block_offset_lt_iff hj hj').mpr hbefore))
  have hgt : ¬ (i' < i ∨ i' = i ∧ j' < j) :=
    fun hbefore => absurd h.symm (Nat.ne_of_lt ((block_offset_lt_iff hj' hj).mpr hbefore))
  omega

/-- The numbers below `n` number themselves. -/
theorem numbers_id (n : Nat) : Numbers (· < ·) (Set.Iio n) n id :=
  ⟨fun _ _ _ _ => Iff.rfl, Set.bijOn_id _⟩

/-- **One more digit in front**: `n` blocks of the places of a numbering are numbered block by
block. -/
theorem Numbers.blocks {α : Type} {before : α → α → Prop} {S : Set α} {k : Nat} {offset : α → Nat}
    (h : Numbers before S k offset) (n : Nat) :
    Numbers (Prod.Lex (· < ·) before) (Set.Iio n ×ˢ S) (n * k)
      (fun p => p.1 * k + offset p.2) where
  lt_iff := by
    rintro ⟨i, a⟩ ⟨-, ha⟩ ⟨i', a'⟩ ⟨-, ha'⟩
    rw [block_offset_lt_iff (h.bijOn.mapsTo ha) (h.bijOn.mapsTo ha'), Prod.lex_def,
      h.lt_iff a ha a' ha']
  bijOn := by
    refine ⟨?mapsTo, ?injOn, ?surjOn⟩
    case mapsTo =>
      rintro ⟨i, a⟩ ⟨hi, ha⟩
      exact block_offset_lt hi (h.bijOn.mapsTo ha)
    case injOn =>
      rintro ⟨i, a⟩ ⟨-, ha⟩ ⟨i', a'⟩ ⟨-, ha'⟩ heq
      obtain ⟨rfl, hoffset⟩ := block_offset_inj (h.bijOn.mapsTo ha) (h.bijOn.mapsTo ha') heq
      exact congrArg (Prod.mk i) (h.bijOn.injOn ha ha' hoffset)
    case surjOn =>
      intro x hx
      -- the block of `x`, and its place there
      have hx : x < n * k := hx
      have hk : 0 < k := Nat.pos_of_ne_zero (by rintro rfl; simp at hx)
      obtain ⟨a, ha, hoffset⟩ := h.bijOn.surjOn (Nat.mod_lt x hk)
      refine ⟨(x / k, a), ⟨Nat.div_lt_of_lt_mul (Nat.mul_comm n k ▸ hx), ha⟩, ?_⟩
      simp only [hoffset]
      exact Nat.div_add_mod' x k

/-! ### Layouts -/

/-- A map numbers its elements by row, then by column, then by channel. -/
theorem FeatureMap.numbers_index (m : FeatureMap) :
    Numbers (Prod.Lex (· < ·) (Prod.Lex (· < ·) (· < ·)))
      (Set.Iio m.height ×ˢ Set.Iio m.width ×ˢ Set.Iio m.channels) m.count
      (fun p => m.index p.1 p.2.1 p.2.2) := by
  have h := ((numbers_id m.channels).blocks m.width).blocks m.height
  simpa only [count, index, Nat.mul_assoc, Nat.add_assoc, id] using h

/-- A bank numbers its weights by depth, then by row, then by column, then by channel. -/
theorem FilterBank.numbers_index (b : FilterBank) :
    Numbers (Prod.Lex (· < ·) (Prod.Lex (· < ·) (Prod.Lex (· < ·) (· < ·))))
      (Set.Iio b.depthMultiplier ×ˢ Set.Iio b.height ×ˢ Set.Iio b.width ×ˢ Set.Iio b.channels)
      b.count (fun p => b.index p.1 p.2.1 p.2.2.1 p.2.2.2) := by
  have h := (((numbers_id b.channels).blocks b.width).blocks b.height).blocks b.depthMultiplier
  simpa only [count, index, Nat.mul_assoc, Nat.add_assoc, id] using h

/-- A bank numbers its filters by channel, then by depth. -/
theorem FilterBank.numbers_channel (b : FilterBank) :
    Numbers (Prod.Lex (· < ·) (· < ·)) (Set.Iio b.channels ×ˢ Set.Iio b.depthMultiplier)
      (b.channels * b.depthMultiplier) (fun p => b.channel p.1 p.2) :=
  (numbers_id b.depthMultiplier).blocks b.channels

/-- A bank has no more filters than weights. -/
theorem FilterBank.filters_le_count (b : FilterBank) (hh : 0 < b.height) (hw : 0 < b.width) :
    b.channels * b.depthMultiplier ≤ b.count :=
  calc b.channels * b.depthMultiplier ≤ b.height * b.width * (b.channels * b.depthMultiplier) :=
        Nat.le_mul_of_pos_left _ (Nat.mul_pos hh hw)
    _ = b.count := by
      rw [count]
      ring

/-- **Layouts number their places.**  A map whose checked count is `n` numbers its elements from
zero to below `n`, a bank whose checked count is `k` numbers its weights from zero to below `k`, both
in the lexicographic order of the coordinates.  If the windows of the bank have cells, its output
channels are numbered from zero to below the number of filters, in the order of channel and depth.
No sum and no product on the way to one of these numbers leaves the machine words. -/
theorem layouts_number {m : FeatureMap} {b : FilterBank} {n k : Nat} (hm : m.checkedLen = some n)
    (hb : b.checkedLen = some k) (hh : 0 < b.height) (hw : 0 < b.width) :
    (Numbers (Prod.Lex (· < ·) (Prod.Lex (· < ·) (· < ·)))
        (Set.Iio m.height ×ˢ Set.Iio m.width ×ˢ Set.Iio m.channels) n
        (fun p => m.index p.1 p.2.1 p.2.2) ∧
      ∀ h w c, h < m.height → w < m.width → c < m.channels →
        m.checkedIndex h w c = some (m.index h w c)) ∧
    (Numbers (Prod.Lex (· < ·) (Prod.Lex (· < ·) (Prod.Lex (· < ·) (· < ·))))
        (Set.Iio b.depthMultiplier ×ˢ Set.Iio b.height ×ˢ Set.Iio b.width ×ˢ Set.Iio b.channels) k
        (fun p => b.index p.1 p.2.1 p.2.2.1 p.2.2.2) ∧
      ∀ dm kh kw c, dm < b.depthMultiplier → kh < b.height → kw < b.width → c < b.channels →
        b.checkedIndex dm kh kw c = some (b.index dm kh kw c)) ∧
    Numbers (Prod.Lex (· < ·) (· < ·)) (Set.Iio b.channels ×ˢ Set.Iio b.depthMultiplier) b.filters
        (fun p => b.channel p.1 p.2) ∧
      ∀ c dm, c < b.channels → dm < b.depthMultiplier →
        b.checkedChannel c dm = some (b.channel c dm) := by
  obtain ⟨rfl, hmfits, -⟩ := m.count_of_checkedLen hm
  obtain ⟨rfl, hbfits, -⟩ := b.count_of_checkedLen hb
  have hfits : b.channels * b.depthMultiplier ≤ Count.limit :=
    (b.filters_le_count hh hw).trans hbfits
  have hfilters : b.filters = b.channels * b.depthMultiplier := Nat.min_eq_left hfits
  refine ⟨⟨m.numbers_index, ?_⟩, ⟨b.numbers_index, ?_⟩, ?_, ?_⟩
  · intro h w c hh hw hc
    exact FeatureMap.checkedIndex_eq_some hmfits hh hw hc
  · intro dm kh kw c hd hkh hkw hc
    exact FilterBank.checkedIndex_eq_some hbfits hd hkh hkw hc
  · rw [hfilters]
    exact b.numbers_channel
  · intro c dm hc hd
    exact FilterBank.checkedChannel_eq_some hfits hc hd

/-- A map of `2 ^ 63` elements and a bank of `3 * 2 ^ 62` weights. -/
theorem layouts_number_large :
    let m : FeatureMap := ⟨2 ^ 32, 2 ^ 30, 2⟩
    let b : FilterBank := ⟨3, 2 ^ 31, 2 ^ 30, 2⟩
    m.checkedLen = some (2 ^ 63) ∧ b.checkedLen = some (3 * 2 ^ 62) ∧ 0 < b.height ∧
      0 < b.width ∧
      m.checkedIndex (2 ^ 32 - 1) (2 ^ 30 - 1) 1 = some (2 ^ 63 - 1) ∧
      b.checkedIndex 2 (2 ^ 31 - 1) (2 ^ 30 - 1) 1 = some (3 * 2 ^ 62 - 1) ∧
      b.index 0 (2 ^ 31 - 1) (2 ^ 30 - 1) 1 < b.index 1 0 0 0 ∧
      (∃ c dm, c < 2 ∧ dm < 3 ∧ b.channel c dm = 5) ∧ b.checkedChannel 1 2 = some 5 := by
  intro m b
  have hm : m.checkedLen = some (2 ^ 63) := by decide
  have hb : b.checkedLen = some (3 * 2 ^ 62) := by decide
  obtain ⟨⟨-, hindex⟩, ⟨hnumbers, hindex'⟩, hchannels, hchannel⟩ :=
    layouts_number hm hb (by decide) (by decide)
  have hfive : 5 < b.filters := by decide
  obtain ⟨⟨c, dm⟩, ⟨hc, hd⟩, hplace⟩ := hchannels.bijOn.surjOn hfive
  refine ⟨hm, hb, by decide, by decide, ?_, ?_, ?_, ⟨c, dm, hc, hd, hplace⟩, ?_⟩
  · exact (hindex _ _ _ (by decide) (by decide) (by decide)).trans (by decide)
  · exact (hindex' _ _ _ _ (by decide) (by decide) (by decide) (by decide)).trans (by decide)
  · have hlast : (0, 2 ^ 31 - 1, 2 ^ 30 - 1, 1) ∈ Set.Iio b.depthMultiplier ×ˢ
        Set.Iio b.height ×ˢ Set.Iio b.width ×ˢ Set.Iio b.channels := by simp [b]
    have hfirst : (1, 0, 0, 0) ∈ Set.Iio b.depthMultiplier ×ˢ
        Set.Iio b.height ×ˢ Set.Iio b.width ×ˢ Set.Iio b.channels := by simp [b]
    exact (hnumbers.lt_iff _ hlast _ hfirst).mpr (Prod.Lex.left _ _ (by decide))
  · exact (hchannel _ _ (by decide) (by decide)).trans (by decide)

end Depthwise
