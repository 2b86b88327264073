import Depthwise.Proofs.Geometry.Spans
import Depthwise.Proofs.Tensor.Counts

/-!
# Consistent geometries

What validation accepts, said without its quotients and its orders of multiplication.

* `Span.Consistent`: with a trailing pad the last window of an axis ends on the padded input and
  another one would not; without one the last window starts on the leading-padded input, and ends at
  a count that fits.
* `Geometry.Consistent`: both axes are consistent, every channel has as many filters, and the three
  element counts fit.

`validate_eq_ok_iff` says that these are the geometries accepted.
-/

namespace Depthwise

/-- The number of windows is the one at which the last window ends on the padded axis and another
one would not. -/
theorem windows_eq_iff {padded filt stride out : Nat} (hs : 0 < stride) (ho : 0 < out)
    (hf : filt ≤ padded) :
    (padded - filt) / stride + 1 = out ↔
      (out - 1) * stride + filt ≤ padded ∧ padded < out * stride + filt := by
  obtain ⟨n, rfl⟩ := Nat.exists_eq_add_one.mpr ho
  rw [Nat.add_right_cancel_iff, Nat.div_eq_iff hs, Nat.add_sub_cancel, Nat.succ_mul]
  omega

/-- As many windows as there are steps before `front` start before it. -/
theorem windows_le_iff {front stride out : Nat} (hs : 0 < stride) (hf : 0 < front) :
    out ≤ (front - 1) / stride + 1 ↔ (out - 1) * stride < front := by
  rw [← Nat.sub_le_iff_le_add, Nat.le_div_iff_mul_le hs]
  omega

namespace Span

/-- The windows of an axis are those its padded input gives. -/
def WindowsFit (s : Span) : Prop :=
  match s.after with
  | some after =>
    s.input + s.before + after ≤ Count.limit ∧ s.filt ≤ s.input + s.before + after ∧
      (s.out - 1) * s.stride + s.filt ≤ s.input + s.before + after ∧
      s.input + s.before + after < s.out * s.stride + s.filt
  | none =>
    s.input + s.before ≤ Count.limit ∧ (s.out - 1) * s.stride + s.filt ≤ Count.limit ∧
      (s.out - 1) * s.stride < s.input + s.before

/-- An axis with its windows on it. -/
structure Consistent (s : Span) : Prop where
  input_pos : 0 < s.input
  filt_pos : 0 < s.filt
  stride_pos : 0 < s.stride
  out_pos : 0 < s.out
  windows : s.WindowsFit

theorem check_eq_ok_iff {s : Span} {axis : Axis} (hi : 0 < s.input) (hs : 0 < s.stride)
    (ho : 0 < s.out) : s.check axis = .ok () ↔ s.WindowsFit := by
  unfold WindowsFit
  cases ha : s.after with
  | some after =>
      rw [check_eq_ok_of_after ha]
      constructor
      · intro ⟨hfit, _, hf, hout⟩
        exact ⟨hfit, hf, (windows_eq_iff hs ho hf).mp hout⟩
      · intro ⟨hfit, hf, hwindows⟩
        exact ⟨hfit, Nat.ne_of_gt hs, hf, (windows_eq_iff hs ho hf).mpr hwindows⟩
  | none => rw [check_eq_ok_of_open ha, windows_le_iff hs (Nat.add_pos_left hi _)]

end Span

/-! ### Element counts -/

/-- Where a product fits, so does its first factor, if the second is not zero. -/
theorem Count.le_of_mul_le {a b : Nat} (hb : 0 < b) (h : a * b ≤ limit) : a ≤ limit :=
  Nat.le_trans (Nat.le_mul_of_pos_right a hb) h

theorem FeatureMap.checkedLen_ne_none {m : FeatureMap} (hc : 0 < m.channels) :
    m.checkedLen ≠ none ↔ m.count ≤ Count.limit := by
  rw [m.checkedLen_eq_checked_iff.mpr (not_lateZero hc), Ne, Count.checked_eq_none, Nat.not_lt]

theorem FilterBank.checkedLen_ne_none {b : FilterBank} (hc : 0 < b.channels)
    (hd : 0 < b.depthMultiplier) : b.checkedLen ≠ none ↔ b.count ≤ Count.limit := by
  rw [b.checkedLen_eq_checked_iff.mpr (not_lateZero hc hd), Ne, Count.checked_eq_none, Nat.not_lt]

namespace Geometry

/-- A geometry whose parts agree with each other and with the size of a machine word. -/
structure Consistent (g : Geometry) : Prop where
  rows : g.rows.Consistent
  cols : g.cols.Consistent
  channels_pos : 0 < g.channels
  filters_pos : 0 < g.filters
  channels_dvd : g.channels ∣ g.filters
  input_le : g.rows.input * g.cols.input * g.channels ≤ Count.limit
  weights_le : g.rows.filt * g.cols.filt * g.filters ≤ Count.limit
  output_le : g.rows.out * g.cols.out * g.filters ≤ Count.limit

variable {g : Geometry}

theorem filterBank_count_eq (h : g.channels ∣ g.filters) :
    g.filterBank.count = g.rows.filt * g.cols.filt * g.filters := by
  have hfilters : g.depthMultiplier * g.channels = g.filters := Nat.div_mul_cancel h
  rw [← hfilters]
  show g.depthMultiplier * g.rows.filt * g.cols.filt * g.channels = _
  rw [Nat.mul_assoc g.depthMultiplier, Nat.mul_comm g.depthMultiplier, Nat.mul_assoc]

theorem extents_ne_zero_iff :
    (∀ e ∈ g.extents, e.2 ≠ 0) ↔
      0 < g.rows.input ∧ 0 < g.cols.input ∧ 0 < g.channels ∧ 0 < g.filters ∧ 0 < g.rows.filt ∧
        0 < g.cols.filt ∧ 0 < g.rows.out ∧ 0 < g.cols.out := by
  simp [extents, Nat.pos_iff_ne_zero]

/-- The three lengths, however they are multiplied out. -/
theorem lengths_ne_none_iff (hc : 0 < g.channels) (hf : 0 < g.filters)
    (hdvd : g.channels ∣ g.filters) :
    (∀ l ∈ g.lengths, l.2 ≠ none) ↔
      g.rows.input * g.cols.input * g.channels ≤ Count.limit ∧
        g.rows.filt * g.cols.filt * g.filters ≤ Count.limit ∧
        g.rows.out * g.cols.out * g.filters ≤ Count.limit := by
  have hd : 0 < g.depthMultiplier := Nat.div_pos (Nat.le_of_dvd hf hdvd) hc
  have hinput := FeatureMap.checkedLen_ne_none (m := g.inputMap) hc
  have hweights := FilterBank.checkedLen_ne_none (b := g.filterBank) hc hd
  have houtput := FeatureMap.checkedLen_ne_none (m := g.outputMap) hf
  rw [filterBank_count_eq hdvd] at hweights
  simp only [lengths, List.forall_mem_cons, List.not_mem_nil, false_implies, implies_true,
    and_true, hinput, hweights, houtput]
  rfl

/-- The geometries accepted are the consistent ones. -/
theorem validate_eq_ok_iff : g.validate = .ok () ↔ g.Consistent := by
  rw [validate_eq_ok, extents_ne_zero_iff]
  constructor
  · intro ⟨⟨hri, hci, hc, hf, hrf, hcf, hro, hco⟩, ⟨hrs, hcs⟩, hmod, hrows, hcols, hlens⟩
    have hrs := Nat.pos_of_ne_zero hrs
    have hcs := Nat.pos_of_ne_zero hcs
    have hdvd := Nat.dvd_of_mod_eq_zero hmod
    obtain ⟨hinput, hweights, houtput⟩ := (lengths_ne_none_iff hc hf hdvd).mp hlens
    exact
      { rows := ⟨hri, hrf, hrs, hro, (Span.check_eq_ok_iff hri hrs hro).mp hrows⟩
        cols := ⟨hci, hcf, hcs, hco, (Span.check_eq_ok_iff hci hcs hco).mp hcols⟩
        channels_pos := hc
        filters_pos := hf
        channels_dvd := hdvd
        input_le := hinput
        weights_le := hweights
        output_le := houtput }
  · intro ⟨⟨hri, hrf, hrs, hro, hrows⟩, ⟨hci, hcf, hcs, hco, hcols⟩, hc, hf, hdvd, hinput,
      hweights, houtput⟩
    exact ⟨⟨hri, hci, hc, hf, hrf, hcf, hro, hco⟩, ⟨Nat.ne_of_gt hrs, Nat.ne_of_gt hcs⟩,
      Nat.mod_eq_zero_of_dvd hdvd, (Span.check_eq_ok_iff hri hrs hro).mpr hrows,
      (Span.check_eq_ok_iff hci hcs hco).mpr hcols,
      (lengths_ne_none_iff hc hf hdvd).mpr ⟨hinput, hweights, houtput⟩⟩

end Geometry

end Depthwise
