import Depthwise.Count

/-!
# Tensor layouts

Tensors are flat buffers; a layout owns the extents and turns coordinates into offsets.  A feature
map is stored row by row, pixel by pixel, channel by channel; a filter bank holds one complete set
of windows per depth, the channel running fastest.  Output channels and biases are numbered the
other way round, all depths of a channel together (`FilterBank.channel`).

`count` is the exact number of elements, `len` the same saturating, `checkedLen` the same checked;
within the extents every offset is below `count` (`index_lt`).
-/

namespace Depthwise

/-- An offset in a layout of `n` blocks of size `k`. -/
theorem block_offset_lt {i j n k : Nat} (hi : i < n) (hj : j < k) : i * k + j < n * k :=
  calc i * k + j < i * k + k := Nat.add_lt_add_left hj _
    _ = (i + 1) * k := (Nat.succ_mul i k).symm
    _ ≤ n * k := Nat.mul_le_mul_right k hi

/-- The layout of an input or output map. -/
structure FeatureMap where
  height : Nat
  width : Nat
  channels : Nat
  deriving DecidableEq, Repr

namespace FeatureMap

variable (m : FeatureMap)

/-- The number of elements. -/
def count : Nat := m.height * m.width * m.channels

/-- The number of elements, or the largest count. -/
def len : Nat := Count.mulSat (Count.mulSat m.height m.width) m.channels

/-- The number of elements, if every product on the way to it fits. -/
def checkedLen : Option Nat := do Count.mul? (← Count.mul? m.height m.width) m.channels

def isEmpty : Bool := m.len == 0

/-- The offset of pixel `(h, w)` in channel `c`. -/
def index (h w c : Nat) : Nat := h * m.width * m.channels + w * m.channels + c

theorem index_eq (h w c : Nat) : m.index h w c = (h * m.width + w) * m.channels + c := by
  rw [index, Nat.add_mul]

theorem index_lt {h w c : Nat} (hh : h < m.height) (hw : w < m.width) (hc : c < m.channels) :
    m.index h w c < m.count := by
  rw [index_eq]
  exact block_offset_lt (block_offset_lt hh hw) hc

theorem len_eq : m.len = min m.count Count.limit := Count.mulSat_min _ _

/-- The checked number of elements is exact, and then so is the saturating one. -/
theorem count_of_checkedLen {n : Nat} (h : m.checkedLen = some n) :
    n = m.count ∧ m.count ≤ Count.limit ∧ m.len = m.count := by
  obtain ⟨_, h₁, h₂⟩ := Option.bind_eq_some_iff.mp h
  obtain ⟨-, rfl⟩ := Count.mul?_eq_some.mp h₁
  obtain ⟨hn, rfl⟩ := Count.mul?_eq_some.mp h₂
  exact ⟨rfl, hn, by rw [len_eq]; exact Nat.min_eq_left hn⟩

end FeatureMap

/-- The layout of the weights. -/
structure FilterBank where
  depthMultiplier : Nat
  height : Nat
  width : Nat
  channels : Nat
  deriving DecidableEq, Repr

namespace FilterBank

variable (b : FilterBank)

/-- The number of weights. -/
def count : Nat := b.depthMultiplier * b.height * b.width * b.channels

/-- The number of weights, or the largest count. -/
def len : Nat :=
  Count.mulSat (Count.mulSat (Count.mulSat b.depthMultiplier b.height) b.width) b.channels

/-- The number of weights, if every product on the way to it fits. -/
def checkedLen : Option Nat := do
  Count.mul? (← Count.mul? (← Count.mul? b.height b.width) b.channels) b.depthMultiplier

def isEmpty : Bool := b.len == 0

/-- The number of filters, or the largest count. -/
def filters : Nat := Count.mulSat b.channels b.depthMultiplier

/-- The offset of weight `(kh, kw)` of the window of depth `dm` in channel `c`. -/
def index (dm kh kw c : Nat) : Nat :=
  dm * b.height * b.width * b.channels + kh * b.width * b.channels + kw * b.channels + c

/-- The output channel of depth `dm` of channel `c`, which is also the number of its bias. -/
def channel (c dm : Nat) : Nat := c * b.depthMultiplier + dm

theorem index_eq (dm kh kw c : Nat) :
    b.index dm kh kw c = ((dm * b.height + kh) * b.width + kw) * b.channels + c := by
  simp only [index, Nat.add_mul]

theorem index_lt {dm kh kw c : Nat} (hd : dm < b.depthMultiplier) (hh : kh < b.height)
    (hw : kw < b.width) (hc : c < b.channels) : b.index dm kh kw c < b.count := by
  rw [index_eq]
  exact block_offset_lt (block_offset_lt (block_offset_lt hd hh) hw) hc

theorem channel_lt {c dm : Nat} (hc : c < b.channels) (hd : dm < b.depthMultiplier) :
    b.channel c dm < b.channels * b.depthMultiplier :=
  block_offset_lt hc hd

theorem len_eq : b.len = min b.count Count.limit := by
  rw [len, count, ← Count.mulSat_min, ← Count.mulSat_min]
  rfl

/-- The checked number of weights is exact, and then so is the saturating one. -/
theorem count_of_checkedLen {n : Nat} (h : b.checkedLen = some n) :
    n = b.count ∧ b.count ≤ Count.limit ∧ b.len = b.count := by
  obtain ⟨_, h₀, h⟩ := Option.bind_eq_some_iff.mp h
  obtain ⟨_, h₁, h₂⟩ := Option.bind_eq_some_iff.mp h
  obtain ⟨-, rfl⟩ := Count.mul?_eq_some.mp h₀
  obtain ⟨-, rfl⟩ := Count.mul?_eq_some.mp h₁
  obtain ⟨hn, rfl⟩ := Count.mul?_eq_some.mp h₂
  have e : b.height * b.width * b.channels * b.depthMultiplier = b.count := by
    simp only [count, Nat.mul_comm _ b.depthMultiplier, Nat.mul_assoc]
  rw [e] at hn ⊢
  exact ⟨rfl, hn, by rw [len_eq]; exact Nat.min_eq_left hn⟩

end FilterBank

end Depthwise
