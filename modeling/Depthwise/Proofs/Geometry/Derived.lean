import Depthwise.Proofs.Geometry.Words
import Mathlib.Algebra.Order.Floor.Div

/-!
# Derived geometries

A padding mode determines the pads and the number of windows of each axis (`Padding.span`).  The
number comes from a quotient of the bare input; validation counts again on the padded one.  Both
counts agree (`span_consistent`), so a derived geometry is never refused for an extent that does not
match, nor for its number of filters (`matched_derive`).

* `Geometry.Derivable`: the numbers from which a geometry is derived.
* `Padding.LaysOut`: what pads and windows a mode gives.  Every window meets the input.
-/

namespace Depthwise

/-! ### One axis -/

/-- A window and an input that are not empty, and steps that lead on. -/
structure Window.Positive (w : Window) : Prop where
  input_pos : 0 < w.input
  filt_pos : 0 < w.filt
  stride_pos : 0 < w.stride

namespace Padding

/-- The number of windows: those that fit, or as many as there are steps that cover the input. -/
def windows : Padding → Window → Nat
  | valid, w => (w.input - w.filt) / w.stride + 1
  | same, w => w.input ⌈/⌉ w.stride

/-- One window fits, or the last one ends at a count that fits. -/
def Places : Padding → Window → Prop
  | valid, w => w.filt ≤ w.input
  | same, w => (w.input ⌈/⌉ w.stride - 1) * w.stride + w.filt ≤ Count.limit

instance (w : Window) : (padding : Padding) → Decidable (padding.Places w)
  | valid => inferInstanceAs (Decidable (w.filt ≤ w.input))
  | same => inferInstanceAs (Decidable (_ ≤ Count.limit))

/-- The cells by which the last window exceeds the input. -/
def pads : Padding → Window → Nat
  | valid, _ => 0
  | same, w => (w.input ⌈/⌉ w.stride - 1) * w.stride + w.filt - w.input

/-- A window with the pads and the number of windows of a mode. -/
def span (padding : Padding) (w : Window) : Span :=
  ⟨w, padding.windows w, padding.pads w / 2, some (padding.pads w - padding.pads w / 2)⟩

variable {padding : Padding} {axis : Axis} {w : Window} {s : Span}

theorem span_valid (w : Window) : valid.span w = ⟨w, valid.windows w, 0, some 0⟩ := by
  simp [span, pads]

theorem fit_eq_ok_iff :
    padding.fit axis w = .ok s ↔
      0 < w.input ∧ 0 < w.stride ∧ padding.Places w ∧ s = padding.span w := by
  unfold fit
  rw [seq_eq_ok, require_eq_ok, Nat.pos_iff_ne_zero, Nat.pos_iff_ne_zero]
  refine and_congr_right fun _ => ?_
  cases padding with
  | valid =>
      simp only [bind_eq_ok, windowCount_eq_ok, pure, Except.pure, Except.ok.injEq, span_valid]
      constructor
      · rintro ⟨_, ⟨hs, hf, rfl⟩, rfl⟩
        exact ⟨hs, hf, rfl⟩
      · rintro ⟨hs, hf, rfl⟩
        exact ⟨_, ⟨hs, hf, rfl⟩, rfl⟩
  | same =>
      simp only
      rw [seq_eq_ok, require_eq_ok, ← Nat.ceilDiv_eq_add_pred_div]
      refine and_congr_right fun _ => ?_
      simp only [bind_eq_ok, demand_eq_ok, Count.add?_eq_some, pure, Except.pure, Except.ok.injEq]
      constructor
      · rintro ⟨_, ⟨hreach, rfl⟩, rfl⟩
        exact ⟨hreach, rfl⟩
      · rintro ⟨hreach, rfl⟩
        exact ⟨_, ⟨hreach, rfl⟩, rfl⟩

/-! ### The two counts of windows -/

theorem windows_pos (hw : w.Positive) : 0 < padding.windows w := by
  cases padding with
  | valid => exact Nat.succ_pos _
  | same =>
      rw [windows, Nat.ceilDiv_eq_add_pred_div]
      exact Nat.div_pos (by have := hw.input_pos; omega) hw.stride_pos

/-- The last window starts inside the input. -/
theorem last_lt (hw : w.Positive) (hp : padding.Places w) :
    (padding.windows w - 1) * w.stride < w.input := by
  cases padding with
  | valid =>
      have hle := Nat.div_mul_le_self (w.input - w.filt) w.stride
      have hfilt := hw.filt_pos
      have hplaces : w.filt ≤ w.input := hp
      rw [windows, Nat.add_sub_cancel]
      omega
  | same =>
      rw [windows, Nat.ceilDiv_eq_add_pred_div]
      exact steps_lt hw.input_pos hw.stride_pos

/-- Without padding the last window ends inside the input, and with it on the padding. -/
theorem reach_le (hp : padding.Places w) :
    (padding.windows w - 1) * w.stride + w.filt ≤ w.input + padding.pads w := by
  cases padding with
  | valid =>
      have hle := Nat.div_mul_le_self (w.input - w.filt) w.stride
      have hplaces : w.filt ≤ w.input := hp
      rw [windows, pads, Nat.add_sub_cancel]
      omega
  | same =>
      rw [windows, pads]
      omega

/-- Another window would not end on the padded input. -/
theorem lt_reach (hw : w.Positive) :
    w.input + padding.pads w < padding.windows w * w.stride + w.filt := by
  have hfilt := hw.filt_pos
  cases padding with
  | valid =>
      have hlt := Nat.lt_div_mul_add (a := w.input - w.filt) hw.stride_pos
      rw [windows, pads, Nat.succ_mul]
      omega
  | same =>
      have hcover := (ceilDiv_le_iff_le_mul hw.stride_pos).mp (le_refl (w.input ⌈/⌉ w.stride))
      have hstep : (w.input ⌈/⌉ w.stride - 1) * w.stride < w.input ⌈/⌉ w.stride * w.stride :=
        Nat.mul_lt_mul_of_pos_right (Nat.sub_one_lt_of_lt (@windows_pos same w hw))
          hw.stride_pos
      rw [Nat.mul_comm] at hcover
      rw [windows, pads]
      omega

theorem padded_le (hi : w.input ≤ Count.limit) (hp : padding.Places w) :
    w.input + padding.pads w ≤ Count.limit := by
  cases padding with
  | valid => exact hi
  | same =>
      have hplaces : (w.input ⌈/⌉ w.stride - 1) * w.stride + w.filt ≤ Count.limit := hp
      rw [pads]
      omega

/-- **Both counts agree.** -/
theorem span_consistent (hw : w.Positive) (hi : w.input ≤ Count.limit) (hp : padding.Places w) :
    (padding.span w).Consistent where
  input_pos := hw.input_pos
  filt_pos := hw.filt_pos
  stride_pos := hw.stride_pos
  out_pos := windows_pos hw
  windows := by
    have hpadded : w.input + padding.pads w / 2 + (padding.pads w - padding.pads w / 2) =
        w.input + padding.pads w := by omega
    have hreach := reach_le hp
    simp only [span, Span.WindowsFit, hpadded]
    exact ⟨padded_le hi hp, (Nat.le_add_left _ _).trans hreach, hreach, lt_reach hw⟩

/-! ### Pads and windows -/

/-- What a mode makes of a window: no pads and as many windows as fit, or a window for every step
that covers the input, with as many cells of padding as the last one exceeds it, the odd one
behind.  Every window has a cell in the input. -/
structure LaysOut (padding : Padding) (w : Window) (s : Span) : Prop where
  window : s.toWindow = w
  pads : match padding with
    | valid => s.before = 0 ∧ s.after = some 0 ∧
        ∀ n, 0 < n → (n ≤ s.out ↔ (n - 1) * w.stride + w.filt ≤ w.input)
    | same => s.out = w.input ⌈/⌉ w.stride ∧ ∃ after, s.after = some after ∧
        s.before + after = (s.out - 1) * w.stride + w.filt - w.input ∧
        (after = s.before ∨ after = s.before + 1)
  meets : ∀ o < s.out, ∃ k < s.filt, ∃ i, s.tap? o k = some i

/-- Windows that start before the end of the input have a cell in it, if the pad in front is shorter
than a window. -/
theorem exists_tap? (hi : 0 < s.input) (hlast : (s.out - 1) * s.stride < s.before + s.input)
    (hbefore : s.before < s.filt) : ∀ o < s.out, ∃ k < s.filt, ∃ i, s.tap? o k = some i := by
  intro o ho
  have hle : o * s.stride ≤ (s.out - 1) * s.stride :=
    Nat.mul_le_mul_right _ (Nat.le_sub_one_of_lt ho)
  rcases Nat.lt_or_ge (o * s.stride) s.before with hlt | hge
  · -- the window starts in the pad and reaches the first cell
    refine ⟨s.before - o * s.stride, by omega, ⟨0, hi⟩, Span.tap?_eq_some.mpr ?_⟩
    simp only
    omega
  · refine ⟨0, by omega, ⟨o * s.stride - s.before, by omega⟩, Span.tap?_eq_some.mpr ?_⟩
    simp only
    omega

/-- All pads together are shorter than a window, which starts inside the input. -/
theorem pads_lt_filt (hw : w.Positive) (hp : padding.Places w) : padding.pads w < w.filt := by
  have hfilt := hw.filt_pos
  cases padding with
  | valid => exact hfilt
  | same =>
      have hlast := last_lt hw hp
      rw [windows] at hlast
      rw [pads]
      omega

theorem laysOut_span (hw : w.Positive) (hp : padding.Places w) :
    padding.LaysOut w (padding.span w) where
  window := rfl
  pads := by
    cases padding with
    | valid =>
        rw [span_valid]
        refine ⟨rfl, rfl, fun n hn => ?_⟩
        have hplaces : w.filt ≤ w.input := hp
        rw [windows, ← Nat.sub_le_iff_le_add, Nat.le_div_iff_mul_le hw.stride_pos]
        omega
    | same =>
        refine ⟨rfl, _, rfl, ?_, ?_⟩
        · simp only [span, pads, windows]
          omega
        · simp only [span]
          omega
  meets := by
    refine exists_tap? hw.input_pos ?_ ?_
    · exact (last_lt hw hp).trans_le (Nat.le_add_left _ _)
    · exact (Nat.div_le_self _ _).trans_lt (pads_lt_filt hw hp)

end Padding

/-! ### Faults of a derivation -/

/-- A declared number of windows or of filters does not match the rest of a geometry. -/
def Fault.Mismatch : Fault → Prop
  | outputExtent .. => True
  | depthMultiplier .. => True
  | _ => False

/-- A computation that is not refused for a mismatch. -/
def Matched {α : Type} (x : Except Fault α) : Prop := ∀ fault, x = .error fault → ¬ fault.Mismatch

section Matched

variable {α β : Type}

theorem matched_ok (a : α) : Matched (.ok a) := fun _ h => nomatch h

theorem matched_of_eq_ok {x : Except Fault α} {a : α} (h : x = .ok a) : Matched x :=
  h ▸ matched_ok a

theorem matched_error {fault : Fault} (h : ¬ fault.Mismatch) :
    Matched (.error fault : Except _ α) :=
  fun _ he => Except.error.inj he ▸ h

theorem matched_bind {x : Except Fault α} {f : α → Except Fault β} (hx : Matched x)
    (hf : ∀ a, x = .ok a → Matched (f a)) : Matched (x >>= f) := by
  cases x with
  | error fault => exact matched_error (hx fault rfl)
  | ok a => exact hf a rfl

theorem matched_require {p : Prop} [Decidable p] {fault : Fault} (h : ¬ fault.Mismatch) :
    Matched (require p fault) := by
  unfold require
  split
  · exact matched_ok ()
  · exact matched_error h

theorem matched_demand {fault : Fault} (h : ¬ fault.Mismatch) (o : Option α) :
    Matched (demand fault o) := by
  cases o with
  | none => exact matched_error h
  | some a => exact matched_ok a

end Matched

theorem matched_windowCount {axis : Axis} {padded filt stride : Nat} :
    Matched (windowCount axis padded filt stride) :=
  matched_bind (matched_require id) fun _ _ =>
    matched_bind (matched_require id) fun _ _ => matched_ok _

theorem Padding.matched_fit {padding : Padding} {axis : Axis} {w : Window} :
    Matched (padding.fit axis w) := by
  refine matched_bind (matched_require id) fun _ _ => ?_
  cases padding with
  | valid => exact matched_bind matched_windowCount fun _ _ => matched_ok _
  | same =>
      exact matched_bind (matched_require id) fun _ _ =>
        matched_bind (matched_demand id _) fun _ _ => matched_ok _

namespace Geometry

/-- The geometry of two windows as a mode lays them out. -/
def laidOut (rows cols : Window) (channels depthMultiplier : Nat) (padding : Padding) : Geometry :=
  ⟨padding.span rows, padding.span cols, channels, channels * depthMultiplier⟩

/-- The numbers from which a padding mode gives a geometry. -/
structure Derivable (rows cols : Window) (channels depthMultiplier : Nat) (padding : Padding) :
    Prop where
  rows_pos : rows.Positive
  cols_pos : cols.Positive
  channels_pos : 0 < channels
  depth_pos : 0 < depthMultiplier
  rows_places : padding.Places rows
  cols_places : padding.Places cols
  filters_le : channels * depthMultiplier ≤ Count.limit
  input_le : rows.input * cols.input * channels ≤ Count.limit
  weights_le : rows.filt * cols.filt * (channels * depthMultiplier) ≤ Count.limit
  output_le :
    padding.windows rows * padding.windows cols * (channels * depthMultiplier) ≤ Count.limit

variable {rows cols : Window} {channels depthMultiplier : Nat} {padding : Padding} {g : Geometry}

theorem Derivable.consistent (h : Derivable rows cols channels depthMultiplier padding) :
    (laidOut rows cols channels depthMultiplier padding).Consistent := by
  have hplane := Count.le_of_mul_le h.channels_pos h.input_le
  have hrows := Count.le_of_mul_le h.cols_pos.input_pos hplane
  rw [Nat.mul_comm] at hplane
  have hcols := Count.le_of_mul_le h.rows_pos.input_pos hplane
  exact
    { rows := Padding.span_consistent h.rows_pos hrows h.rows_places
      cols := Padding.span_consistent h.cols_pos hcols h.cols_places
      channels_pos := h.channels_pos
      filters_pos := Nat.mul_pos h.channels_pos h.depth_pos
      channels_dvd := Nat.dvd_mul_right _ _
      input_le := h.input_le
      weights_le := h.weights_le
      output_le := h.output_le }

theorem derivable_of_consistent (hr : padding.Places rows) (hc : padding.Places cols)
    (hfit : channels * depthMultiplier ≤ Count.limit)
    (h : (laidOut rows cols channels depthMultiplier padding).Consistent) :
    Derivable rows cols channels depthMultiplier padding where
  rows_pos := ⟨h.rows.input_pos, h.rows.filt_pos, h.rows.stride_pos⟩
  cols_pos := ⟨h.cols.input_pos, h.cols.filt_pos, h.cols.stride_pos⟩
  channels_pos := h.channels_pos
  depth_pos := Nat.pos_of_mul_pos_left h.filters_pos
  rows_places := hr
  cols_places := hc
  filters_le := hfit
  input_le := h.input_le
  weights_le := h.weights_le
  output_le := h.output_le

theorem derive_eq_ok_iff :
    derive rows cols channels depthMultiplier padding = .ok g ↔
      Derivable rows cols channels depthMultiplier padding ∧
        g = laidOut rows cols channels depthMultiplier padding := by
  unfold derive
  simp only [bind_eq_ok, Padding.fit_eq_ok_iff, demand_eq_ok, Count.mul?_eq_some]
  constructor
  · rintro ⟨_, hstride, _, ⟨hri, hrs, hrp, rfl⟩, _, ⟨hci, hcs, hcp, rfl⟩, _, ⟨hfit, rfl⟩, _, hv, hg⟩
    exact ⟨derivable_of_consistent hrp hcp hfit (validate_eq_ok_iff.mp hv),
      (Except.ok.inj hg).symm⟩
  · rintro ⟨h, rfl⟩
    have hr := h.rows_pos
    have hc := h.cols_pos
    exact ⟨(), require_eq_ok.mpr ⟨hr.stride_pos.ne', hc.stride_pos.ne'⟩,
      _, ⟨hr.input_pos, hr.stride_pos, h.rows_places, rfl⟩,
      _, ⟨hc.input_pos, hc.stride_pos, h.cols_places, rfl⟩, _, ⟨h.filters_le, rfl⟩,
      (), validate_eq_ok_iff.mpr h.consistent, rfl⟩

theorem matched_validate (hr : rows.input ≤ Count.limit) (hc : cols.input ≤ Count.limit)
    (hrp : padding.Places rows) (hcp : padding.Places cols) :
    Matched (laidOut rows cols channels depthMultiplier padding).validate := by
  unfold validate
  cases hext : (laidOut rows cols channels depthMultiplier padding).extents.find? (·.2 == 0) with
  | some e => exact matched_error id
  | none =>
    have hext : ∀ e ∈ (laidOut rows cols channels depthMultiplier padding).extents, e.2 ≠ 0 := by
      simpa [List.find?_eq_none] using hext
    obtain ⟨hri, hci, -, -, hrf, hcf, hro, hco⟩ := extents_ne_zero_iff.mp hext
    show Matched (require _ _ >>= _)
    refine matched_bind (matched_require id) fun _ hstride => ?_
    obtain ⟨hrs, hcs⟩ := require_eq_ok.mp hstride
    have hrs := Nat.pos_of_ne_zero hrs
    have hcs := Nat.pos_of_ne_zero hcs
    have hmod : channels * depthMultiplier % channels = 0 := Nat.mul_mod_right _ _
    have hrows := (Padding.span_consistent ⟨hri, hrf, hrs⟩ hr hrp).windows
    have hcols := (Padding.span_consistent ⟨hci, hcf, hcs⟩ hc hcp).windows
    refine matched_bind (matched_of_eq_ok (require_eq_ok.mpr hmod)) fun _ _ =>
      matched_bind (matched_of_eq_ok ((Span.check_eq_ok_iff hri hrs hro).mpr hrows)) fun _ _ =>
      matched_bind (matched_of_eq_ok ((Span.check_eq_ok_iff hci hcs hco).mpr hcols)) fun _ _ => ?_
    cases (laidOut rows cols channels depthMultiplier padding).lengths.find? (·.2.isNone) with
    | none => exact matched_ok ()
    | some l => exact matched_error id

/-- A derivation never finds what it has derived not to match. -/
theorem matched_derive (hr : rows.input ≤ Count.limit) (hc : cols.input ≤ Count.limit) :
    Matched (derive rows cols channels depthMultiplier padding) := by
  refine matched_bind (matched_require id) fun _ _ =>
    matched_bind Padding.matched_fit fun _ hrows =>
    matched_bind Padding.matched_fit fun _ hcols =>
    matched_bind (matched_demand id _) fun _ hfilters => ?_
  obtain ⟨-, -, hrp, rfl⟩ := Padding.fit_eq_ok_iff.mp hrows
  obtain ⟨-, -, hcp, rfl⟩ := Padding.fit_eq_ok_iff.mp hcols
  obtain ⟨-, rfl⟩ := Count.mul?_eq_some.mp (demand_eq_ok.mp hfilters)
  exact matched_bind (matched_validate hr hc hrp hcp) fun _ _ => matched_ok _

theorem value_withPadding :
    (withPadding rows cols channels depthMultiplier padding).run.value =
      derive rows cols channels depthMultiplier padding := by
  unfold withPadding
  cases derive rows cols channels depthMultiplier padding <;> rfl

/-- **What is derived from a padding mode.**  No step of the derivation leaves the machine words.
It gives a geometry exactly for the numbers of `Derivable`, and never fails for a mismatch.  The
geometry is valid, has the depths asked for, and its axes are laid out as the mode says. -/
theorem withPadding_laysOut (hr : rows.input ≤ Count.limit) (hc : cols.input ≤ Count.limit)
    (hplaces : padding = .valid → ¬ rows.Overfull ∧ ¬ cols.Overfull) :
    let derived := (withPadding rows cols channels depthMultiplier padding).run.value
    (checkedDerive rows cols channels depthMultiplier padding).run = some derived ∧
      ((∃ g, derived = .ok g) ↔ Derivable rows cols channels depthMultiplier padding) ∧
      (∀ fault, derived = .error fault → ¬ fault.Mismatch) ∧
      ∀ g, derived = .ok g →
        g.validate = .ok () ∧ g.channels = channels ∧ g.depthMultiplier = depthMultiplier ∧
          padding.LaysOut rows g.rows ∧ padding.LaysOut cols g.cols := by
  simp only [value_withPadding]
  refine ⟨?_, ?_, matched_derive hr hc, fun g hg => ?_⟩
  · rw [checkedDerive_eq hr hc hplaces]
    rfl
  · simp only [derive_eq_ok_iff, exists_and_left, exists_eq, and_true]
  · obtain ⟨h, rfl⟩ := derive_eq_ok_iff.mp hg
    exact ⟨validate_eq_ok_iff.mpr h.consistent, rfl,
      Nat.mul_div_cancel_left depthMultiplier h.channels_pos,
      Padding.laysOut_span h.rows_pos h.rows_places, Padding.laysOut_span h.cols_pos h.cols_places⟩

/-- Two windows of `2 ^ 63 - 1` rows, `2 ^ 63` rows apart, exceed `2 ^ 64 - 2` rows by one, which
is the last one that can be counted.  It goes behind, and the second window still meets the
input. -/
theorem withPadding_tall :
    2 ^ 64 - 2 ≤ Count.limit ∧ 1 ≤ Count.limit ∧
      ∃ g, (withPadding ⟨2 ^ 64 - 2, 2 ^ 63 - 1, 2 ^ 63⟩ ⟨1, 1, 3⟩ 1 2 .same).run.value = .ok g ∧
        g.rows.out = 2 ∧ g.rows.after = some (g.rows.before + 1) ∧ g.depthMultiplier = 2 ∧
        ∃ k < g.rows.filt, ∃ i, g.rows.tap? 1 k = some i := by
  have hr : 2 ^ 64 - 2 ≤ Count.limit := by decide
  have hc : 1 ≤ Count.limit := by decide
  obtain ⟨-, hok, -, hlaid⟩ := @withPadding_laysOut ⟨2 ^ 64 - 2, 2 ^ 63 - 1, 2 ^ 63⟩ ⟨1, 1, 3⟩ 1 2
    .same hr hc nofun
  obtain ⟨g, hg⟩ := hok.mpr
    { rows_pos := ⟨by decide, by decide, by decide⟩
      cols_pos := ⟨by decide, by decide, by decide⟩
      channels_pos := by decide
      depth_pos := by decide
      rows_places := by decide +kernel
      cols_places := by decide +kernel
      filters_le := by decide
      input_le := by decide
      weights_le := by decide
      output_le := by decide +kernel }
  obtain ⟨-, -, hdepth, ⟨hwindow, ⟨hout, after, hafter, hsum, hodd⟩, hmeets⟩, -⟩ := hlaid g hg
  have htwo : g.rows.out = 2 := hout.trans (by decide +kernel)
  rw [htwo] at hsum
  have hone : g.rows.before + after = 1 := hsum
  have hbehind : after = g.rows.before + 1 := by omega
  exact ⟨hr, hc, g, hg, htwo, hbehind ▸ hafter, hdepth, hmeets 1 (htwo ▸ Nat.one_lt_two)⟩

end Geometry

end Depthwise
