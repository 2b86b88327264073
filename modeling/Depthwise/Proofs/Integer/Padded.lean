import Depthwise.Proofs.Kernel.Output
import Mathlib.Algebra.Ring.Int.Defs

/-!
# The padded input

The kernel makes no padded copy of its input; it skips the cells of a window that lie outside.  The
definition it stands for does make one (`Geometry.padded`): rows of pixels of channels, with zeros
in front of every axis and, behind it, as many as the last window needs (`Span.surround`).  Every
cell of every window can be read off that copy, and the sum at an output is over the whole window
(`Geometry.paddedSum?`).

`paddedSample?_eq`: the copy holds a zero where the kernel skips a cell, and elsewhere the sample
the kernel reads.  This is so for windows that overhang the input on either side, however far.
-/

namespace Depthwise

namespace Span

variable (s : Span)

/-- The padded cells up to the end of the last window. -/
def reach : Nat := (s.out - 1) * s.stride + s.filt

/-- The cells of an axis between blanks, as many behind as the last window needs. -/
def surround {α : Type} (blank : α) (cells : List α) : List α :=
  List.replicate s.before blank ++ cells ++
    List.replicate (s.reach - (s.before + s.input)) blank

variable {s}

theorem cell_lt_reach {o k : Nat} (ho : o < s.out) (hk : k < s.filt) :
    o * s.stride + k < s.reach :=
  Nat.add_lt_add_of_le_of_lt (Nat.mul_le_mul_right _ (Nat.le_sub_one_of_lt ho)) hk

theorem toNat_place (o k : Nat) : (s.place o k).toNat = o * s.stride + k - s.before := by
  rw [place]
  omega

theorem covers_iff {o k : Nat} :
    s.Covers o k ↔ s.before ≤ o * s.stride + k ∧ o * s.stride + k < s.before + s.input := by
  unfold Covers place
  omega

theorem Covers.toNat_lt {o k : Nat} (h : s.Covers o k) : (s.place o k).toNat < s.input :=
  (Int.toNat_lt h.1).mpr h.2

/-- The cell of a window, read off the surrounded axis. -/
theorem getElem?_surround {α : Type} {blank : α} {cells : List α} (hlen : cells.length = s.input)
    {o k : Nat} (ho : o < s.out) (hk : k < s.filt) :
    (s.surround blank cells)[o * s.stride + k]? =
      if s.Covers o k then cells[(s.place o k).toNat]? else some blank := by
  have hreach := cell_lt_reach ho hk
  simp only [covers_iff, toNat_place]
  generalize o * s.stride + k = cell at hreach ⊢
  have hfront : (List.replicate s.before blank ++ cells).length = s.before + s.input := by
    rw [List.length_append, List.length_replicate, hlen]
  rw [surround]
  rcases Nat.lt_or_ge cell s.before with hlt | hge
  · -- in the padding in front
    rw [if_neg (by omega), List.getElem?_append_left (by omega),
      List.getElem?_append_left (by rwa [List.length_replicate]),
      List.getElem?_replicate_of_lt hlt]
  · rcases Nat.lt_or_ge cell (s.before + s.input) with hin | hout
    · rw [if_pos ⟨hge, hin⟩, List.getElem?_append_left (by omega),
        List.getElem?_append_right (by rwa [List.length_replicate]), List.length_replicate]
    · -- in the padding behind, where the last window ends
      rw [if_neg (by omega), List.getElem?_append_right (by omega), hfront,
        List.getElem?_replicate_of_lt (by omega)]

end Span

namespace Geometry

variable (g : Geometry)

/-- The samples of a pixel, in all channels. -/
def pixel (input : Array ℤ) (row col : Nat) : List ℤ :=
  let first := row * g.cols.input * g.channels + col * g.channels
  (input.extract first (first + g.channels)).toList

/-- A pixel of the padding. -/
def blankPixel : List ℤ := List.replicate g.channels 0

/-- A row of pixels between the padding at its ends. -/
def paddedRow (pixels : List (List ℤ)) : List (List ℤ) := g.cols.surround g.blankPixel pixels

/-- The copy of the input between rows of padding. -/
def padded (input : Array ℤ) : List (List (List ℤ)) :=
  g.rows.surround (g.paddedRow (List.replicate g.cols.input g.blankPixel))
    ((List.range g.rows.input).map fun row =>
      g.paddedRow ((List.range g.cols.input).map (g.pixel input row)))

/-- The sample of the copy under cell `k` of the window at `(h, w)`, in channel `c`. -/
def paddedSample? (input : Array ℤ) (h w c : Nat) (k : Nat × Nat) : Option ℤ := do
  let row ← (g.padded input)[h * g.rows.stride + k.1]?
  let pixel ← row[w * g.cols.stride + k.2]?
  pixel[c]?

/-- The product at cell `k` of the window at `(h, w)`. -/
def paddedProduct? (input weights : Array ℤ) (h w c dm : Nat) (k : Nat × Nat) : Option ℤ := do
  let d ← g.paddedSample? input h w c k
  let v ← weights[g.weightOffset c dm k]?
  return d * v

/-- The bias and the products of the whole window at pixel `(h, w)`, for depth `dm` of channel
`c`. -/
def paddedSum? (input weights biases : Array ℤ) (h w c dm : Nat) : Option ℤ := do
  let bias ← biases[c * g.depthMultiplier + dm]?
  let products ← g.window.mapM (g.paddedProduct? input weights h w c dm)
  return bias + products.sum

variable {g}

theorem getElem?_blankPixel {c : Nat} (hc : c < g.channels) : g.blankPixel[c]? = some 0 :=
  List.getElem?_replicate_of_lt hc

/-- The samples of a pixel stand side by side. -/
theorem getElem?_pixel {input : Array ℤ} (hsize : input.size = g.inputMap.count) {row col c : Nat}
    (hrow : row < g.rows.input) (hcol : col < g.cols.input) (hc : c < g.channels) :
    (g.pixel input row col)[c]? =
      input[row * g.cols.input * g.channels + col * g.channels + c]? := by
  have hlt : row * g.cols.input * g.channels + col * g.channels + c < g.inputMap.count :=
    g.inputMap.index_lt hrow hcol hc
  rw [pixel, Array.getElem?_toList, Array.getElem?_extract, if_pos (by omega)]

/-- Every row of padding is blank. -/
theorem getElem?_blankRow {w kw : Nat} (hw : w < g.cols.out) (hkw : kw < g.cols.filt) :
    (g.paddedRow (List.replicate g.cols.input g.blankPixel))[w * g.cols.stride + kw]? =
      some g.blankPixel := by
  rw [paddedRow, Span.getElem?_surround List.length_replicate hw hkw]
  split
  · next hcover => exact List.getElem?_replicate_of_lt hcover.toNat_lt
  · rfl

/-- **The padded copy under a window.** -/
theorem paddedSample?_eq {input : Array ℤ} (hsize : input.size = g.inputMap.count) {h w c : Nat}
    (hh : h < g.rows.out) (hw : w < g.cols.out) (hc : c < g.channels) {k : Nat × Nat}
    (hk : k ∈ g.window) :
    g.paddedSample? input h w c k =
      if g.Covers h w k then input[g.sampleOffset h w c k]? else some 0 := by
  obtain ⟨hkh, hkw⟩ := mem_window.mp hk
  have hrows : ((List.range g.rows.input).map fun row =>
      g.paddedRow ((List.range g.cols.input).map (g.pixel input row))).length = g.rows.input := by
    rw [List.length_map, List.length_range]
  rw [paddedSample?, padded, Span.getElem?_surround hrows hh hkh]
  by_cases hrow : g.rows.Covers h k.1
  · have hcols : ((List.range g.cols.input).map
        (g.pixel input (g.rows.place h k.1).toNat)).length = g.cols.input := by
      rw [List.length_map, List.length_range]
    rw [if_pos hrow, List.getElem?_map, List.getElem?_range hrow.toNat_lt]
    simp only [Option.map_some, Option.bind_eq_bind, Option.bind_some]
    rw [paddedRow, Span.getElem?_surround hcols hw hkw]
    by_cases hcol : g.cols.Covers w k.2
    · rw [if_pos hcol, if_pos ⟨hrow, hcol⟩, List.getElem?_map, List.getElem?_range hcol.toNat_lt]
      exact getElem?_pixel hsize hrow.toNat_lt hcol.toNat_lt hc
    · rw [if_neg hcol, if_neg fun hcover => hcol hcover.2]
      exact getElem?_blankPixel hc
  · rw [if_neg hrow, if_neg fun hcover => hrow hcover.1]
    simp only [Option.bind_eq_bind, Option.bind_some, getElem?_blankRow hw hkw]
    exact getElem?_blankPixel hc

end Geometry

end Depthwise
