import Depthwise.Geometry.Padding
import Depthwise.Proofs.Geometry.Consistent

/-!
# Geometries in machine words

Validating a geometry and deriving one from a padding mode is counting, and most of it is done
without looking whether the result fits.  A **checked** computation looks every time: it is absent
as soon as a sum or a product does not fit a machine word, a difference would be negative, or a
divisor is zero.

* `checkedValidate_eq`: validation is never absent, since every step is guarded by what has been
  found before, and so it accepts the consistent geometries (`accepts_iff_consistent`).
* `checkedDerive_eq`: neither is a derivation whose counts fit, with one exception: a window of no
  cells that is moved in steps of one over the greatest count of cells, without padding, has one
  place more than fit.
-/

namespace Depthwise

/-! ### Checked steps -/

namespace Count

/-- The difference, if it is not negative. -/
def sub? (a b : Nat) : Option Nat := if b ≤ a then some (a - b) else none

/-- The quotient, if the divisor is not zero. -/
def div? (a b : Nat) : Option Nat := if b = 0 then none else some (a / b)

/-- The remainder, if the divisor is not zero. -/
def mod? (a b : Nat) : Option Nat := if b = 0 then none else some (a % b)

/-- The quotient, rounded up, if the divisor is not zero. -/
def divUp? (a b : Nat) : Option Nat := do
  let q ← div? a b
  let r ← mod? a b
  if 0 < r then add? q 1 else return q

theorem sub?_of_le {a b : Nat} (h : b ≤ a) : sub? a b = some (a - b) := if_pos h

theorem div?_of_pos {a b : Nat} (h : 0 < b) : div? a b = some (a / b) :=
  if_neg (Nat.ne_of_gt h)

theorem mod?_of_pos {a b : Nat} (h : 0 < b) : mod? a b = some (a % b) :=
  if_neg (Nat.ne_of_gt h)

/-- A quotient that is rounded up fits where the dividend does. -/
theorem divUp?_of_pos {a b : Nat} (hb : 0 < b) (ha : a ≤ limit) :
    divUp? a b = some ((a + b - 1) / b) := by
  have hdiv := Nat.div_add_mod a b
  have hmod := Nat.mod_lt a hb
  rw [divUp?, div?_of_pos hb, mod?_of_pos hb]
  simp only [Option.bind_eq_bind, Option.bind_some]
  split
  · next hr =>
    have hup : (a + b - 1) / b = a / b + 1 := by
      rw [Nat.div_eq_iff hb, Nat.succ_mul, Nat.mul_comm]
      omega
    have hle : a / b ≤ b * (a / b) := Nat.le_mul_of_pos_left _ hb
    rw [hup, add?_of_le (by omega)]
  · next hr =>
    have hup : (a + b - 1) / b = a / b := by
      rw [Nat.div_eq_iff hb, Nat.mul_comm]
      omega
    rw [hup]
    rfl

end Count

/-- A computation that may be refused, and is absent when one of its steps does not fit. -/
abbrev Checked (α : Type) := ExceptT Fault Option α

namespace Checked

variable {α β : Type}

/-- A computation without steps that might not fit. -/
def total (x : Except Fault α) : Checked α := ExceptT.mk (some x)

/-- A step that might not fit. -/
def step (o : Option α) : Checked α := ExceptT.lift o

theorem step_bind {o : Option α} {a : α} (h : o = some a) (f : α → Checked β) :
    (step o >>= f) = f a := by
  rw [h]
  rfl

/-- What follows a computation only has to fit where that succeeds. -/
theorem total_bind {x : Except Fault α} {f : α → Except Fault β} {g : α → Checked β}
    (h : ∀ a, x = .ok a → g a = total (f a)) :
    (total x >>= g) = total (x >>= f) := by
  cases x with
  | error fault => rfl
  | ok a => exact h a rfl

end Checked

open Checked (total step step_bind total_bind)

/-! ### Validation -/

/-- The number of windows on `padded` cells, every step being checked. -/
def checkedWindowCount (axis : Axis) (padded filt stride : Nat) : Checked Nat := do
  total (require (stride ≠ 0) .zeroStride)
  total (require (filt ≤ padded) (.filterExceedsInput axis filt padded))
  let room ← step (Count.sub? padded filt)
  let steps ← step (Count.div? room stride)
  step (Count.add? steps 1)

/-- As many windows as there are fit, except for one more than the greatest count. -/
theorem windows_lt_limit {padded filt stride : Nat} (hp : padded ≤ Count.limit)
    (h : ¬ (padded = Count.limit ∧ filt = 0 ∧ stride = 1)) (hs : 0 < stride) :
    (padded - filt) / stride < Count.limit := by
  have hlimit : 0 < Count.limit := by decide
  rcases Nat.lt_or_ge (padded - filt) Count.limit with hlt | hge
  · exact Nat.lt_of_le_of_lt (Nat.div_le_self _ _) hlt
  · -- nothing is taken off the greatest count, so the steps are longer than one
    have hstride : 1 < stride := by omega
    exact Nat.lt_of_lt_of_le (Nat.div_lt_self (by omega) hstride) (by omega)

theorem checkedWindowCount_eq {axis : Axis} {padded filt stride : Nat} (hp : padded ≤ Count.limit)
    (h : ¬ (padded = Count.limit ∧ filt = 0 ∧ stride = 1)) :
    checkedWindowCount axis padded filt stride = total (windowCount axis padded filt stride) := by
  refine total_bind fun _ hs => total_bind fun _ hf => ?_
  have hs := Nat.pos_of_ne_zero (require_eq_ok.mp hs)
  have hf := require_eq_ok.mp hf
  rw [step_bind (Count.sub?_of_le hf), step_bind (Count.div?_of_pos hs),
    Count.add?_of_le (windows_lt_limit hp h hs)]
  rfl

namespace Span

/-- The check of one axis, every step being checked. -/
def checkedCheck (axis : Axis) (s : Span) : Checked Unit := do
  let overflow := Fault.shapeOverflow (.padded axis)
  let front ← total (demand overflow (Count.add? s.input s.before))
  match s.after with
  | some after =>
    let padded ← total (demand overflow (Count.add? front after))
    let expected ← checkedWindowCount axis padded s.filt s.stride
    total (require (expected = s.out) (.outputExtent axis expected s.out))
  | none =>
    let last ← step (Count.sub? front 1)
    let steps ← step (Count.div? last s.stride)
    let expected ← step (Count.add? steps 1)
    let ahead ← step (Count.sub? s.out 1)
    let start ← total (demand overflow (Count.mul? ahead s.stride))
    let _ ← total (demand overflow (Count.add? start s.filt))
    total (require (s.out ≤ expected) (.outputExtent axis expected s.out))

theorem checkedCheck_eq {axis : Axis} {s : Span} (hi : 0 < s.input) (hf : 0 < s.filt)
    (hs : 0 < s.stride) (ho : 0 < s.out) : s.checkedCheck axis = total (s.check axis) := by
  refine total_bind fun front hfront => ?_
  obtain ⟨hfit, rfl⟩ := Count.add?_eq_some.mp (demand_eq_ok.mp hfront)
  cases s.after with
  | some after =>
      refine total_bind fun padded hpadded => ?_
      obtain ⟨hfit, rfl⟩ := Count.add?_eq_some.mp (demand_eq_ok.mp hpadded)
      rw [checkedWindowCount_eq hfit (by omega)]
      exact total_bind fun _ _ => rfl
  | none =>
      have hsteps := Nat.div_le_self (s.input + s.before - 1) s.stride
      simp only
      rw [step_bind (Count.sub?_of_le (by omega)), step_bind (Count.div?_of_pos hs),
        step_bind (Count.add?_of_le (by omega)), step_bind (Count.sub?_of_le ho)]
      exact total_bind fun _ _ => total_bind fun _ _ => rfl

end Span

namespace Geometry

/-- Validation, every step being checked. -/
def checkedValidate (g : Geometry) : Checked Unit := do
  total (match g.extents.find? (·.2 == 0) with
    | some (extent, _) => .error (.zeroDimension extent)
    | none => .ok ())
  total (require (g.rows.stride ≠ 0 ∧ g.cols.stride ≠ 0) .zeroStride)
  let rest ← step (Count.mod? g.filters g.channels)
  total (require (rest = 0) (.depthMultiplier g.channels g.filters))
  g.rows.checkedCheck .height
  g.cols.checkedCheck .width
  -- the lengths have checks of their own
  total (match g.lengths.find? (·.2.isNone) with
    | some (measure, _) => .error (.shapeOverflow measure)
    | none => .ok ())

theorem checkedValidate_eq (g : Geometry) : g.checkedValidate = total g.validate := by
  unfold checkedValidate validate
  cases hext : g.extents.find? (·.2 == 0) with
  | some e => rfl
  | none =>
    have hext : ∀ e ∈ g.extents, e.2 ≠ 0 := by simpa [List.find?_eq_none] using hext
    obtain ⟨hri, hci, hc, -, hrf, hcf, hro, hco⟩ := extents_ne_zero_iff.mp hext
    show (total (require _ _) >>= _) = total (require _ _ >>= _)
    refine total_bind fun _ hstride => ?_
    obtain ⟨hrs, hcs⟩ := require_eq_ok.mp hstride
    rw [step_bind (Count.mod?_of_pos hc),
      Span.checkedCheck_eq hri hrf (Nat.pos_of_ne_zero hrs) hro,
      Span.checkedCheck_eq hci hcf (Nat.pos_of_ne_zero hcs) hco]
    refine total_bind fun _ _ => total_bind fun _ _ => total_bind fun _ _ => ?_
    cases g.lengths.find? (·.2.isNone) <;> rfl

/-- **Validation accepts the consistent geometries** and no others, and whatever the numbers are,
no step of it leaves the machine words or divides by zero. -/
theorem accepts_iff_consistent (g : Geometry) :
    g.checkedValidate.run = some g.validate ∧ (g.validate = .ok () ↔ g.Consistent) := by
  refine ⟨?_, validate_eq_ok_iff⟩
  rw [checkedValidate_eq]
  rfl

end Geometry

/-! ### Derivation -/

/-- A window of no cells, moved in steps of one over the greatest count of cells: the number of its
places does not fit. -/
def Window.Overfull (w : Window) : Prop := w.input = Count.limit ∧ w.filt = 0 ∧ w.stride = 1

namespace Padding

/-- The span of a window under a padding mode, every step being checked. -/
def checkedFit (axis : Axis) (w : Window) (padding : Padding) : Checked Span := do
  total (require (w.input ≠ 0) (.zeroDimension axis.extent))
  match padding with
  | valid =>
    let out ← checkedWindowCount axis w.input w.filt w.stride
    return ⟨w, out, 0, some 0⟩
  | same =>
    total (require (w.stride ≠ 0) .zeroStride)
    let out ← step (Count.divUp? w.input w.stride)
    let ahead ← step (Count.sub? out 1)
    let start ← step (Count.mul? ahead w.stride)
    let reach ← total (demand (.shapeOverflow (.padded axis)) (Count.add? start w.filt))
    -- this difference stops at zero
    let pads := reach - w.input
    let after ← step (Count.sub? pads (pads / 2))
    return ⟨w, out, pads / 2, some after⟩

/-- The last of as many steps as cover the input starts inside it. -/
theorem steps_lt {input stride : Nat} (hi : 0 < input) (hs : 0 < stride) :
    ((input + stride - 1) / stride - 1) * stride < input := by
  have hle := Nat.div_mul_le_self (input + stride - 1) stride
  rw [Nat.sub_mul, Nat.one_mul]
  omega

theorem checkedFit_eq {axis : Axis} {w : Window} {padding : Padding} (hi : w.input ≤ Count.limit)
    (h : padding = valid → ¬ w.Overfull) :
    padding.checkedFit axis w = total (padding.fit axis w) := by
  refine total_bind fun _ hinput => ?_
  have hpos := Nat.pos_of_ne_zero (require_eq_ok.mp hinput)
  cases padding with
  | valid =>
      simp only
      rw [checkedWindowCount_eq hi (h rfl)]
      exact total_bind fun _ _ => rfl
  | same =>
      refine total_bind fun _ hstride => ?_
      have hs := Nat.pos_of_ne_zero (require_eq_ok.mp hstride)
      have hout : 1 ≤ (w.input + w.stride - 1) / w.stride := Nat.div_pos (by omega) hs
      have hlast := steps_lt hpos hs
      rw [step_bind (Count.divUp?_of_pos hs hi), step_bind (Count.sub?_of_le hout),
        step_bind (Count.mul?_of_le (by omega))]
      refine total_bind fun reach _ => ?_
      simp only
      rw [step_bind (Count.sub?_of_le (Nat.div_le_self _ _))]
      rfl

end Padding

namespace Geometry

/-- The geometry of two windows under a padding mode, every step being checked. -/
def checkedDerive (rows cols : Window) (channels depthMultiplier : Nat) (padding : Padding) :
    Checked Geometry := do
  total (require (rows.stride ≠ 0 ∧ cols.stride ≠ 0) .zeroStride)
  let rows ← padding.checkedFit .height rows
  let cols ← padding.checkedFit .width cols
  let filters ← total (demand (.shapeOverflow .filters) (Count.mul? channels depthMultiplier))
  let g : Geometry := ⟨rows, cols, channels, filters⟩
  g.checkedValidate
  return g

theorem checkedDerive_eq {rows cols : Window} {channels depthMultiplier : Nat} {padding : Padding}
    (hr : rows.input ≤ Count.limit) (hc : cols.input ≤ Count.limit)
    (h : padding = .valid → ¬ rows.Overfull ∧ ¬ cols.Overfull) :
    checkedDerive rows cols channels depthMultiplier padding =
      total (derive rows cols channels depthMultiplier padding) := by
  unfold checkedDerive derive
  rw [Padding.checkedFit_eq hr fun hp => (h hp).1, Padding.checkedFit_eq hc fun hp => (h hp).2]
  refine total_bind fun _ _ => total_bind fun rows _ => total_bind fun cols _ =>
    total_bind fun filters _ => ?_
  simp only
  rw [checkedValidate_eq]
  exact total_bind fun _ _ => rfl

end Geometry

end Depthwise
