import Depthwise.Proofs.Geometry.Derived
import Depthwise.Proofs.Kernel.Refusals
import Depthwise.Unroll

/-!
# Trailing pads

A trailing pad says how many windows there are, which the number of windows says as well.  Leaving
it out (`Span.opened`) changes what validation asks of an axis and nothing else.

* With a pad the last window has to end on the padded axis, and without one it has to start on the
  leading-padded input (`Span.StartsInside`).  A window that ends on the padded axis starts there if
  the pad is shorter than a window (`Span.Consistent.startsInside`).  The padding modes give such
  pads (`Padding.padShort_span`).
* The kernel and the plan take the cells of a window from the input and the leading pad alone, so
  they are the same without the trailing ones (`Config.compute_opened`, `UnrollPlan.make_opened`).

`Geometry.trailing_pads_redundant` puts this together.
-/

namespace Depthwise

/-! ### One axis -/

namespace Span

variable {s : Span}

/-- The axis without its trailing pad. -/
def opened (s : Span) : Span := { s with after := none }

/-- The trailing pad, if there is one, is shorter than a window. -/
def PadShort (s : Span) : Prop := ∀ after, s.after = some after → after < s.filt

/-- The last window starts before the end of the leading-padded input. -/
def StartsInside (s : Span) : Prop := (s.out - 1) * s.stride < s.input + s.before

theorem Consistent.startsInside (h : s.Consistent) (hshort : s.PadShort) : s.StartsInside := by
  have hwindows := h.windows
  unfold WindowsFit at hwindows
  unfold StartsInside
  cases ha : s.after with
  | some after =>
      rw [ha] at hwindows
      obtain ⟨-, -, hreach, -⟩ := hwindows
      have hpad := hshort after ha
      omega
  | none =>
      rw [ha] at hwindows
      exact hwindows.2.2

theorem WindowsFit.front_le (h : s.WindowsFit) : s.input + s.before ≤ Count.limit := by
  unfold WindowsFit at h
  split at h
  · omega
  · exact h.1

theorem Consistent.reach_le (h : s.Consistent) :
    (s.out - 1) * s.stride + s.filt ≤ Count.limit := by
  have hcheck : s.check .height = .ok () :=
    (check_eq_ok_iff h.input_pos h.stride_pos h.out_pos).mpr h.windows
  exact Span.reach_le hcheck

/-- All that is asked anew of an axis without its pad is where the last window starts. -/
theorem Consistent.opened_iff (h : s.Consistent) : s.opened.Consistent ↔ s.StartsInside := by
  refine ⟨fun hopen => hopen.windows.2.2, fun hstarts => ?_⟩
  exact { h with windows := ⟨h.windows.front_le, h.reach_le, hstarts⟩ }

end Span

theorem Padding.padShort_span {padding : Padding} {w : Window} (hw : w.Positive)
    (hp : padding.Places w) : (padding.span w).PadShort := by
  intro after hafter
  have hpads := pads_lt_filt hw hp
  obtain rfl := Option.some.inj hafter
  exact (Nat.sub_le _ _).trans_lt hpads

/-! ### Both axes -/

namespace Geometry

variable {g : Geometry}

/-- The geometry without its trailing pads. -/
def opened (g : Geometry) : Geometry := { g with rows := g.rows.opened, cols := g.cols.opened }

/-- Both trailing pads are shorter than the windows of their axes. -/
def PadsShort (g : Geometry) : Prop := g.rows.PadShort ∧ g.cols.PadShort

theorem Consistent.opened_iff (h : g.Consistent) :
    g.opened.Consistent ↔ g.rows.StartsInside ∧ g.cols.StartsInside := by
  rw [← h.rows.opened_iff, ← h.cols.opened_iff]
  exact ⟨fun hopen => ⟨hopen.rows, hopen.cols⟩,
    fun ⟨hrows, hcols⟩ => { h with rows := hrows, cols := hcols }⟩

theorem validate_opened_iff (hv : g.validate = .ok ()) :
    g.opened.validate = .ok () ↔ g.rows.StartsInside ∧ g.cols.StartsInside := by
  rw [validate_eq_ok_iff, (validate_eq_ok_iff.mp hv).opened_iff]

theorem validate_opened (hv : g.validate = .ok ()) (hshort : g.PadsShort) :
    g.opened.validate = .ok () := by
  have h := validate_eq_ok_iff.mp hv
  exact (validate_opened_iff hv).mpr
    ⟨h.rows.startsInside hshort.1, h.cols.startsInside hshort.2⟩

theorem padsShort_of_withPadding {rows cols : Window} {channels depthMultiplier : Nat}
    {padding : Padding}
    (h : (withPadding rows cols channels depthMultiplier padding).run.value = .ok g) :
    g.validate = .ok () ∧ g.PadsShort := by
  rw [value_withPadding] at h
  obtain ⟨hderivable, rfl⟩ := derive_eq_ok_iff.mp h
  exact ⟨validate_eq_ok_iff.mpr hderivable.consistent,
    Padding.padShort_span hderivable.rows_pos hderivable.rows_places,
    Padding.padShort_span hderivable.cols_pos hderivable.cols_places⟩

end Geometry

/-! ### Runs and plans -/

/-- The taps of a window are found without the trailing pads. -/
theorem UnrollPlan.make_opened (g : Geometry) (orderSensitive : Bool) :
    make g.opened orderSensitive = make g orderSensitive := rfl

namespace Config

variable {D W P B A O : Type} (cfg : Config D W P B A O)

/-- The configuration without the trailing pads of its geometry. -/
def opened (h : cfg.geometry.opened.validate = .ok ()) : Config D W P B A O :=
  { cfg with geometry := cfg.geometry.opened, valid := h }

variable (hopen : cfg.geometry.opened.validate = .ok ())

theorem element?_opened (input : Array D) (weights : Array W) (biases : Array B) (h w c dm : Nat) :
    (cfg.opened hopen).element? input weights biases h w c dm =
      cfg.element? input weights biases h w c dm := rfl

/-- **A run is the same without the trailing pads.** -/
theorem compute_opened (input : Array D) (weights : Array W) (biases : Array B)
    (output : Array O) :
    (cfg.opened hopen).compute input weights biases output =
      cfg.compute input weights biases output := by
  refine cfg.compute_congr input weights biases output (cfg.opened hopen) input weights biases rfl
    rfl fun lens => Array.ext_getElem? fun i => ?_
  have lens' : (cfg.opened hopen).geometry.checkOperands input.size weights.size biases.size
      output.size = .ok () := lens
  rcases Nat.lt_or_ge i cfg.geometry.outputMap.count with hi | hi
  · obtain ⟨h, w, c, dm, hh, hw, hc, hd, rfl⟩ := Geometry.exists_outputOffset_eq cfg.valid hi
    rw [cfg.getElem?_outputOffset lens hh hw hc hd, ← cfg.element?_opened hopen]
    exact (cfg.opened hopen).getElem?_outputOffset lens' hh hw hc hd
  · have hsize := (cfg.size_compute lens).trans_le hi
    have hsize' := ((cfg.opened hopen).size_compute lens').trans_le hi
    rw [Array.getElem?_eq_none hsize, Array.getElem?_eq_none hsize']

end Config

/-- **Trailing pads are redundant.**  What a padding mode gives is valid, and its trailing pads are
shorter than the windows.  A valid geometry with such pads stays valid without them; in general it
does exactly when on both axes the last window starts before the end of the leading-padded input.
Whenever it stays valid, its plan and every run on it are the same. -/
theorem Geometry.trailing_pads_redundant :
    (∀ (rows cols : Window) (channels depthMultiplier : Nat) (padding : Padding) (g : Geometry),
        (withPadding rows cols channels depthMultiplier padding).run.value = .ok g →
          g.validate = .ok () ∧ g.PadsShort) ∧
      ∀ (g : Geometry) (hv : g.validate = .ok ()),
        (g.PadsShort → g.opened.validate = .ok ()) ∧
          (g.opened.validate = .ok () ↔ g.rows.StartsInside ∧ g.cols.StartsInside) ∧
          ∀ hopen : g.opened.validate = .ok (),
            (∀ orderSensitive,
              UnrollPlan.make g.opened orderSensitive = UnrollPlan.make g orderSensitive) ∧
            ∀ {D W P B A O : Type} (product : D → W → P) (accumulator : Accumulator B P A)
              (cast : A → O) (input : Array D) (weights : Array W) (biases : Array B)
              (output : Array O),
              Config.compute ⟨g.opened, product, accumulator, cast, hopen⟩ input weights biases
                  output =
                Config.compute ⟨g, product, accumulator, cast, hv⟩ input weights biases output := by
  refine ⟨fun _ _ _ _ _ _ => padsShort_of_withPadding, fun g hv =>
    ⟨validate_opened hv, validate_opened_iff hv, fun hopen => ⟨UnrollPlan.make_opened g, ?_⟩⟩⟩
  intro D W P B A O product accumulator cast
  exact Config.compute_opened ⟨g, product, accumulator, cast, hv⟩ hopen

/-- Three rows and three columns with a border of one cell. -/
def Geometry.bordered : Geometry where
  rows := { input := 3, filt := 3, stride := 2, out := 2, before := 1, after := some 1 }
  cols := { input := 3, filt := 3, stride := 1, out := 3, before := 1, after := some 1 }
  channels := 1
  filters := 1

/-- The mode that covers the input gives this border, and its trailing cells can be left out. -/
theorem Geometry.trailing_pads_bordered :
    (withPadding ⟨3, 3, 2⟩ ⟨3, 3, 1⟩ 1 1 .same).run.value = .ok bordered ∧
      bordered.validate = .ok () ∧ bordered.PadsShort ∧
      UnrollPlan.make bordered.opened true = ⟨6, 28, 6, .ordered⟩ ∧
      bordered.checkOperands 9 9 1 6 = .ok () ∧
      ∃ (hv : bordered.validate = .ok ()) (hopen : bordered.opened.validate = .ok ()),
        let run (cfg : Config Int Int Int Int Int Int) :=
          cfg.compute (countUp 9) (countUp 9) (countUp 1) (countUp 6)
        run ⟨bordered.opened, (· * ·), Config.farApart.accumulator, id, hopen⟩ =
          run ⟨bordered, (· * ·), Config.farApart.accumulator, id, hv⟩ := by
  have hbordered : (withPadding ⟨3, 3, 2⟩ ⟨3, 3, 1⟩ 1 1 .same).run.value = .ok bordered := rfl
  obtain ⟨hderived, hredundant⟩ := trailing_pads_redundant
  obtain ⟨hv, hshort⟩ := hderived _ _ _ _ _ _ hbordered
  obtain ⟨hvalid, -, hsame⟩ := hredundant bordered hv
  obtain ⟨hplan, hrun⟩ := hsame (hvalid hshort)
  exact ⟨hbordered, hv, hshort, (hplan true).trans rfl, rfl, hv, hvalid hshort,
    hrun _ _ _ _ _ _ _⟩

/-- A trailing pad as long as a window cannot be left out: the second window starts on it. -/
example :
    let s : Span := ⟨⟨1, 1, 1⟩, 2, 0, some 1⟩
    s.check .height = .ok () ∧ s.opened.check .height = .error (.outputExtent .height 1 2) := by
  decide

end Depthwise
