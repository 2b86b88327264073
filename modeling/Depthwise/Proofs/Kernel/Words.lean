import Depthwise.Proofs.Geometry.Spans
import Depthwise.Proofs.Kernel.Output

/-!
# The kernel in machine words

The kernel multiplies and adds counts without looking whether the result fits a machine word, reads
the buffers at the offsets it finds, and pushes finished slots, each of which has to land at its
place.  `Config.checkedSlots` is the same six loops with every one of these steps checked: it is
absent as soon as a sum or a product of counts does not fit, an offset is not below the length of
its buffer, or a slot is pushed out of its place.

* `stepFits`: the counts of one step and its offsets, for every cell of every window.
* `checkedSlots_eq_some`: no check fails, and the slots are those of the kernel.
* `compute_fits`: both, for the buffers of a run.

Validation establishes this in another form: checked sums of pads, a number of windows that is exact
or only bounded (`Span.check_eq_ok_of_after`, `Span.check_eq_ok_of_open`), and three lengths
multiplied in orders of their own.  What is used of it is that the last window of either axis ends
within the limit and that the three lengths do.
-/

namespace Depthwise

/-! ### Loops that do not fail -/

/-- A loop whose steps succeed is the loop of their results. -/
theorem foldlM_range_eq_some {β : Type} {n : Nat} {step : β → Nat → Option β} {f : β → Fin n → β}
    (h : ∀ b (i : Fin n), step b i = some (f b i)) (b : β) :
    (List.range n).foldlM step b = some ((List.finRange n).foldl f b) := by
  rw [← List.map_coe_finRange_eq_range, List.foldlM_map]
  simp only [h]
  exact List.foldlM_pure

/-- A loop over the items of the lists of a list is a loop of loops. -/
theorem foldlM_flatMap {α γ β : Type} (f : α → List γ) (step : β → γ → Option β) (l : List α)
    (b : β) :
    (l.flatMap f).foldlM step b = l.foldlM (fun b a => (f a).foldlM step b) b := by
  induction l generalizing b with
  | nil => rfl
  | cons a l ih => simp only [List.flatMap_cons, List.foldlM_append, List.foldlM_cons, ih]

/-- A loop that pushes one result after another, each step being sure of those before it. -/
theorem foldlM_push_eq_some {α β : Type} {f : α → β} {push : List β → α → Option (List β)}
    {l : List α}
    (h : ∀ before a after, l = before ++ a :: after →
      push (before.map f) a = some (before.map f ++ [f a])) :
    l.foldlM push [] = some (l.map f) := by
  suffices hrest : ∀ after before, l = before ++ after →
      after.foldlM push (before.map f) = some (l.map f) from hrest l [] rfl
  intro after
  induction after with
  | nil => intro before hl; simp [hl]
  | cons a after ih =>
      intro before hl
      have hpush : push (before.map f) a = some ((before ++ [a]).map f) := by
        rw [h before a after hl, List.map_append]
        rfl
      rw [List.foldlM_cons, hpush]
      exact ih (before ++ [a]) (by rw [hl, List.append_assoc]; rfl)

/-! ### Checked offsets -/

/-- The offset of pixel `(h, w)` in channel `c`, if every product and sum on the way to it fits. -/
def FeatureMap.checkedIndex (m : FeatureMap) (h w c : Nat) : Option Nat := do
  let row ← Count.mul? (← Count.mul? h m.width) m.channels
  let col ← Count.mul? w m.channels
  Count.add? (← Count.add? row col) c

/-- The offset of a weight, if every product and sum on the way to it fits. -/
def FilterBank.checkedIndex (b : FilterBank) (dm kh kw c : Nat) : Option Nat := do
  let depth ← Count.mul? (← Count.mul? (← Count.mul? dm b.height) b.width) b.channels
  let row ← Count.mul? (← Count.mul? kh b.width) b.channels
  let col ← Count.mul? kw b.channels
  Count.add? (← Count.add? (← Count.add? depth row) col) c

/-- The output channel of depth `dm` of channel `c`, if the product and the sum fit. -/
def FilterBank.checkedChannel (b : FilterBank) (c dm : Nat) : Option Nat := do
  Count.add? (← Count.mul? c b.depthMultiplier) dm

/-- The input cell that cell `k` of window `o` covers, or none if it is padding; absent when the
product or the sum does not fit. -/
def Span.checkedTap (s : Span) (o k : Nat) : Option (Option Nat) := do
  let cell ← Count.add? (← Count.mul? o s.stride) k
  return if s.before ≤ cell ∧ cell - s.before < s.input then some (cell - s.before) else none

theorem FeatureMap.checkedIndex_eq_some {m : FeatureMap} (hm : m.count ≤ Count.limit) {h w c : Nat}
    (hh : h < m.height) (hw : w < m.width) (hc : c < m.channels) :
    m.checkedIndex h w c = some (m.index h w c) := by
  have hlt := m.index_lt hh hw hc
  unfold index at hlt
  have hrow : h * m.width ≤ h * m.width * m.channels := Nat.le_mul_of_pos_right _ (by omega)
  simp (disch := omega) only [checkedIndex, Count.mul?_of_le, Count.add?_of_le,
    Option.bind_eq_bind, Option.bind_some, index]

theorem FilterBank.checkedIndex_eq_some {b : FilterBank} (hb : b.count ≤ Count.limit)
    {dm kh kw c : Nat} (hd : dm < b.depthMultiplier) (hh : kh < b.height) (hw : kw < b.width)
    (hc : c < b.channels) : b.checkedIndex dm kh kw c = some (b.index dm kh kw c) := by
  have hlt := b.index_lt hd hh hw hc
  unfold index at hlt
  have hdepth : dm * b.height ≤ dm * b.height * b.width := Nat.le_mul_of_pos_right _ (by omega)
  have hdepth' : dm * b.height * b.width ≤ dm * b.height * b.width * b.channels :=
    Nat.le_mul_of_pos_right _ (by omega)
  have hrow : kh * b.width ≤ kh * b.width * b.channels := Nat.le_mul_of_pos_right _ (by omega)
  simp (disch := omega) only [checkedIndex, Count.mul?_of_le, Count.add?_of_le,
    Option.bind_eq_bind, Option.bind_some, index]

theorem FilterBank.checkedChannel_eq_some {b : FilterBank}
    (hb : b.channels * b.depthMultiplier ≤ Count.limit) {c dm : Nat} (hc : c < b.channels)
    (hd : dm < b.depthMultiplier) : b.checkedChannel c dm = some (b.channel c dm) := by
  have hlt := b.channel_lt hc hd
  unfold channel at hlt
  simp (disch := omega) only [checkedChannel, Count.mul?_of_le, Count.add?_of_le,
    Option.bind_eq_bind, Option.bind_some, channel]

theorem Span.checkedTap_eq_some {s : Span} {axis : Axis} (h : s.check axis = .ok ()) {o k : Nat}
    (ho : o < s.out) (hk : k < s.filt) :
    s.checkedTap o k = some ((s.tap? o k).map Fin.val) := by
  have hcell := cell_le h ho hk
  simp (disch := omega) only [checkedTap, Count.mul?_of_le, Count.add?_of_le,
    Option.bind_eq_bind, Option.bind_some, tap?]
  split <;> rfl

namespace Geometry

variable {g : Geometry}

theorem out_pos (hv : g.validate = .ok ()) : 0 < g.rows.out ∧ 0 < g.cols.out := by
  have hext := (validate_eq_ok.mp hv).1
  exact ⟨Nat.pos_of_ne_zero (hext (.outHeight, g.rows.out) (by simp [extents])),
    Nat.pos_of_ne_zero (hext (.outWidth, g.cols.out) (by simp [extents]))⟩

theorem filters_le (hv : g.validate = .ok ()) :
    g.channels * g.depthMultiplier ≤ Count.limit := by
  obtain ⟨hh, hw⟩ := out_pos hv
  calc g.channels * g.depthMultiplier = g.filters := filters_eq hv
    _ ≤ g.rows.out * g.cols.out * g.filters := Nat.le_mul_of_pos_left _ (Nat.mul_pos hh hw)
    _ ≤ Count.limit := (outputMap_count hv).1

theorem channel_lt_filters (hv : g.validate = .ok ()) {c dm : Nat} (hc : c < g.channels)
    (hd : dm < g.depthMultiplier) : g.filterBank.channel c dm < g.filters := by
  rw [← filters_eq hv]
  exact FilterBank.channel_lt _ hc hd

variable (g)

/-- Every count on the way through cell `(kh, kw)` of the window of replica `(h, w, c, dm)` fits,
and its offsets are below the lengths of the four buffers. -/
structure StepFits (input weights biases output h w c dm kh kw : Nat) : Prop where
  row : h * g.rows.stride + kh ≤ Count.limit
  col : w * g.cols.stride + kw ≤ Count.limit
  channel : g.filterBank.checkedChannel c dm = some (c * g.depthMultiplier + dm)
  channel_lt : c * g.depthMultiplier + dm < biases
  place : g.outputMap.checkedIndex h w (c * g.depthMultiplier + dm) = some (g.outputOffset h w c dm)
  place_lt : g.outputOffset h w c dm < output
  weight : g.filterBank.checkedIndex dm kh kw c = some (g.weightOffset c dm (kh, kw))
  weight_lt : g.weightOffset c dm (kh, kw) < weights
  sample : ∀ row col, g.rows.tap? h kh = some row → g.cols.tap? w kw = some col →
    g.inputMap.checkedIndex row col c = some (g.sampleOffset h w c (kh, kw)) ∧
      g.sampleOffset h w c (kh, kw) < input

variable {g}

theorem stepFits (hv : g.validate = .ok ()) {input weights biases output : Nat}
    (lens : g.checkOperands input weights biases output = .ok ()) {h w c dm kh kw : Nat}
    (hh : h < g.rows.out) (hw : w < g.cols.out) (hc : c < g.channels) (hd : dm < g.depthMultiplier)
    (hkh : kh < g.rows.filt) (hkw : kw < g.cols.filt) :
    g.StepFits input weights biases output h w c dm kh kw := by
  obtain ⟨-, -, -, hrows, hcols, -⟩ := validate_eq_ok.mp hv
  obtain ⟨rfl, rfl, rfl, rfl⟩ := checkOperands_eq_ok.mp lens
  rw [(inputMap_count hv).2, (filterBank_count hv).2, (outputMap_count hv).2]
  have hch := channel_lt_filters hv hc hd
  exact
    { row := Span.cell_le hrows hh hkh
      col := Span.cell_le hcols hw hkw
      channel := FilterBank.checkedChannel_eq_some (filters_le hv) hc hd
      channel_lt := hch
      place := FeatureMap.checkedIndex_eq_some (outputMap_count hv).1 hh hw hch
      place_lt := g.outputMap.index_lt hh hw hch
      weight := FilterBank.checkedIndex_eq_some (filterBank_count hv).1 hd hkh hkw hc
      weight_lt := g.filterBank.index_lt hd hkh hkw hc
      sample := fun row col hr hq => by
        rw [sampleOffset, Span.place_eq_of_tap? hr, Span.place_eq_of_tap? hq]
        exact ⟨FeatureMap.checkedIndex_eq_some (inputMap_count hv).1 row.isLt col.isLt hc,
          g.inputMap.index_lt row.isLt col.isLt hc⟩ }

/-- The sum over the taps of a window is the loop over its cells that skips padding. -/
theorem foldl_taps {β : Type} (f : β → Tap g → β) (h w : Nat) (b : β) :
    (g.taps h w).foldl f b =
      (List.finRange g.rows.filt).foldl (fun b (kh : Fin g.rows.filt) =>
        match g.rows.tap? h kh with
        | none => b
        | some row =>
          (List.finRange g.cols.filt).foldl (fun b (kw : Fin g.cols.filt) =>
            match g.cols.tap? w kw with
            | none => b
            | some col => f b ⟨kh, kw, row, col⟩) b) b := by
  simp only [taps, Span.taps, List.foldl_flatMap, List.foldl_map, List.foldl_filterMap]
  congr
  funext b kh
  cases g.rows.tap? h kh with
  | none => rfl
  | some row =>
      simp only [Option.map_some]
      congr
      funext b kw
      cases g.cols.tap? w kw <;> rfl

end Geometry

/-! ### The checked loops -/

namespace Config

variable {D W P B A O : Type} (cfg : Config D W P B A O)

/-- The slot after the cell `(kh, kw)` of a window, which lies at `(row, col)` of the input. -/
def checkedAdd (input : Array D) (weights : Array W) (c dm kh row : Nat) (slot : A)
    (kw col : Nat) : Option A := do
  let d ← input[← cfg.geometry.inputMap.checkedIndex row col c]?
  let v ← weights[← cfg.geometry.filterBank.checkedIndex dm kh kw c]?
  return cfg.accumulator.accumulate slot (cfg.product d v)

/-- The slot after a whole window, padding being skipped. -/
def checkedSlot (input : Array D) (weights : Array W) (h w c dm : Nat) (seed : A) : Option A :=
  (List.range cfg.geometry.rows.filt).foldlM (fun slot kh => do
    match ← cfg.geometry.rows.checkedTap h kh with
    | none => return slot
    | some row =>
      (List.range cfg.geometry.cols.filt).foldlM (fun slot kw => do
        match ← cfg.geometry.cols.checkedTap w kw with
        | none => return slot
        | some col => cfg.checkedAdd input weights c dm kh row slot kw col) slot) seed

/-- The slots after one more, which must land at its place. -/
def checkedPush (input : Array D) (weights : Array W) (biases : Array B) (h w c : Nat)
    (slots : List A) (dm : Nat) : Option (List A) := do
  let channel ← cfg.geometry.filterBank.checkedChannel c dm
  guard (some slots.length = cfg.geometry.outputMap.checkedIndex h w channel)
  let bias ← biases[channel]?
  let slot ← cfg.checkedSlot input weights h w c dm (cfg.accumulator.seed bias)
  return slots ++ [slot]

/-- All slots, pushed in the order of the loops over the output. -/
def checkedSlots (input : Array D) (weights : Array W) (biases : Array B) : Option (List A) :=
  let g := cfg.geometry
  (List.range g.rows.out).foldlM (fun slots h =>
    (List.range g.cols.out).foldlM (fun slots w =>
      (List.range g.channels).foldlM (fun slots c =>
        (List.range g.depthMultiplier).foldlM (cfg.checkedPush input weights biases h w c)
          slots) slots) slots) []

variable (x : Operands cfg.geometry D W B)

theorem checkedAdd_eq_some (r : Replica cfg.geometry) (kh : Fin cfg.geometry.rows.filt)
    (row : Fin cfg.geometry.rows.input) (kw : Fin cfg.geometry.cols.filt)
    (col : Fin cfg.geometry.cols.input) (slot : A) :
    cfg.checkedAdd x.input x.weights r.c r.dm kh row slot kw col =
      some (cfg.accumulator.accumulate slot
        (cfg.product (x.sample row col r.c) (x.weight r.dm kh kw r.c))) := by
  have hi := FeatureMap.checkedIndex_eq_some (Geometry.inputMap_count cfg.valid).1
    row.isLt col.isLt r.c.isLt
  have hf := FilterBank.checkedIndex_eq_some (Geometry.filterBank_count cfg.valid).1
    r.dm.isLt kh.isLt kw.isLt r.c.isLt
  rw [checkedAdd, hi, hf]
  simp only [Option.bind_eq_bind, Option.bind_some, x.getElem?_sample, x.getElem?_weight]
  rfl

/-- No check fails on the way through a window. -/
theorem checkedSlot_eq_some (r : Replica cfg.geometry) :
    cfg.checkedSlot x.input x.weights r.h r.w r.c r.dm
      (cfg.accumulator.seed (x.bias r.c r.dm)) = some (cfg.slot x r) := by
  have hcheck := Geometry.validate_eq_ok.mp cfg.valid
  rw [slot, products, List.foldl_map, Geometry.foldl_taps]
  refine foldlM_range_eq_some (fun slot kh => ?_) _
  rw [Span.checkedTap_eq_some hcheck.2.2.2.1 r.h.isLt kh.isLt]
  cases cfg.geometry.rows.tap? r.h kh with
  | none => rfl
  | some row =>
      refine foldlM_range_eq_some (fun slot kw => ?_) slot
      rw [Span.checkedTap_eq_some hcheck.2.2.2.2.1 r.w.isLt kw.isLt]
      cases cfg.geometry.cols.tap? r.w kw with
      | none => rfl
      | some col => exact cfg.checkedAdd_eq_some x r kh row kw col slot

/-- No check fails on the way to a push, if as many slots are there as come before. -/
theorem checkedPush_eq_some (r : Replica cfg.geometry) {slots : List A}
    (hplace : r.index = slots.length) :
    cfg.checkedPush x.input x.weights x.biases r.h r.w r.c slots r.dm =
      some (slots ++ [cfg.slot x r]) := by
  have hchannel := FilterBank.checkedChannel_eq_some (b := cfg.geometry.filterBank)
    (Geometry.filters_le cfg.valid) r.c.isLt r.dm.isLt
  have hindex : cfg.geometry.outputMap.checkedIndex r.h r.w
      (cfg.geometry.filterBank.channel r.c r.dm) = some slots.length := by
    rw [← hplace]
    exact FeatureMap.checkedIndex_eq_some (Geometry.outputMap_count cfg.valid).1 r.h.isLt r.w.isLt
      (Geometry.channel_lt_filters cfg.valid r.c.isLt r.dm.isLt)
  rw [checkedPush, hchannel]
  simp only [Option.bind_eq_bind, Option.bind_some, hindex, x.getElem?_bias,
    cfg.checkedSlot_eq_some x r, guard_true, Option.pure_def]

/-- **No check fails**, and the checked loops push the slots of the kernel. -/
theorem checkedSlots_eq_some :
    cfg.checkedSlots x.input x.weights x.biases =
      some (cfg.geometry.replicas.map (cfg.slot x)) := by
  have hloops : cfg.checkedSlots x.input x.weights x.biases =
      cfg.geometry.replicas.foldlM (fun slots r =>
        cfg.checkedPush x.input x.weights x.biases r.h r.w r.c slots r.dm) [] := by
    simp only [checkedSlots, Geometry.replicas, foldlM_flatMap, List.foldlM_map,
      ← List.map_coe_finRange_eq_range]
  rw [hloops]
  refine foldlM_push_eq_some fun before r after hr => cfg.checkedPush_eq_some x r ?_
  rw [List.length_map, Geometry.index_eq_length cfg.valid hr]

/-- **The kernel stays within machine words and within its buffers.**  Every step of every replica
fits, every replica is visited when as many slots are pushed as its place says, and the loops with
all checks made push the slots whose casts the kernel writes. -/
theorem compute_fits {input : Array D} {weights : Array W} {biases : Array B} {output : Array O}
    (lens : cfg.geometry.checkOperands input.size weights.size biases.size output.size = .ok ()) :
    (∀ h w c dm kh kw, h < cfg.geometry.rows.out → w < cfg.geometry.cols.out →
      c < cfg.geometry.channels → dm < cfg.geometry.depthMultiplier →
      kh < cfg.geometry.rows.filt → kw < cfg.geometry.cols.filt →
      cfg.geometry.StepFits input.size weights.size biases.size output.size h w c dm kh kw) ∧
    (∀ before r after, cfg.geometry.replicas = before ++ r :: after → r.index = before.length) ∧
    ∃ slots, cfg.checkedSlots input weights biases = some slots ∧
      (cfg.compute input weights biases output).output = (slots.map cfg.cast).toArray := by
  refine ⟨?_, ?_, _, cfg.checkedSlots_eq_some (cfg.operands lens), ?_⟩
  · intro h w c dm kh kw hh hw hc hd hkh hkw
    exact Geometry.stepFits cfg.valid lens hh hw hc hd hkh hkw
  · intro before r after hr
    exact Geometry.index_eq_length cfg.valid hr
  · rw [output_compute cfg lens, outputs, List.map_map]
    rfl

end Config

/-- The last step of the layer with its windows far apart reads its input behind cell `2 ^ 63` of
the padded axis. -/
theorem fits_farApart :
    Geometry.farApart.checkOperands 12 16 4 24 = .ok () ∧
      Geometry.farApart.StepFits 12 16 4 24 1 2 1 1 1 1 ∧
        ∃ slots,
          Config.farApart.checkedSlots (countUp 12) (countUp 16) (countUp 4) = some slots := by
  have lens : Geometry.farApart.checkOperands (countUp 12).size (countUp 16).size (countUp 4).size
      (countUp 24).size = .ok () := rfl
  obtain ⟨hsteps, -, slots, hslots, -⟩ := Config.farApart.compute_fits lens
  exact ⟨lens, hsteps 1 2 1 1 1 1 (by decide) (by decide) (by decide) (by decide) (by decide)
    (by decide), slots, hslots⟩

end Depthwise
