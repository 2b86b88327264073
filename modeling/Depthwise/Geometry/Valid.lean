import Depthwise.Geometry.Basic

/-!
# What validation guarantees

`Geometry.validate_eq_ok` takes the check apart into its conditions; from them the kernel has what
it reads by: the three buffer lengths are exact, and biases and filters are as many as channels and
depths together.
-/

namespace Depthwise.Geometry

variable {g : Geometry}

/-- The check passes when no extent is zero, no stride is zero, every channel has as many filters,
both axes are consistent and the three element counts fit. -/
theorem validate_eq_ok :
    g.validate = .ok () ↔
      (∀ e ∈ g.extents, e.2 ≠ 0) ∧ (g.rows.stride ≠ 0 ∧ g.cols.stride ≠ 0) ∧
        g.filters % g.channels = 0 ∧ g.rows.check .height = .ok () ∧
        g.cols.check .width = .ok () ∧ ∀ l ∈ g.lengths, l.2 ≠ none := by
  have hfind : g.extents.find? (·.2 == 0) = none ↔ ∀ e ∈ g.extents, e.2 ≠ 0 := by
    simp [List.find?_eq_none]
  have hlens : g.lengths.find? (·.2.isNone) = none ↔ ∀ l ∈ g.lengths, l.2 ≠ none := by
    simp [List.find?_eq_none]
  rw [← hfind, ← hlens, validate]
  cases g.extents.find? (·.2 == 0) with
  | some e => simp [bind, Except.bind]
  | none =>
    simp only [seq_eq_ok, require_eq_ok, true_and, pure, Except.pure]
    cases g.lengths.find? (·.2.isNone) <;> simp

theorem inputMap_count (h : g.validate = .ok ()) :
    g.inputMap.count ≤ Count.limit ∧ g.inputMap.len = g.inputMap.count := by
  have hl := (validate_eq_ok.mp h).2.2.2.2.2 (.inputLength, g.inputMap.checkedLen) (by simp [lengths])
  obtain ⟨n, hn⟩ := Option.ne_none_iff_exists'.mp hl
  exact (g.inputMap.count_of_checkedLen hn).2

theorem filterBank_count (h : g.validate = .ok ()) :
    g.filterBank.count ≤ Count.limit ∧ g.filterBank.len = g.filterBank.count := by
  have hl := (validate_eq_ok.mp h).2.2.2.2.2 (.weightLength, g.filterBank.checkedLen) (by simp [lengths])
  obtain ⟨n, hn⟩ := Option.ne_none_iff_exists'.mp hl
  exact (g.filterBank.count_of_checkedLen hn).2

theorem outputMap_count (h : g.validate = .ok ()) :
    g.outputMap.count ≤ Count.limit ∧ g.outputMap.len = g.outputMap.count := by
  have hl := (validate_eq_ok.mp h).2.2.2.2.2 (.outputLength, g.outputMap.checkedLen) (by simp [lengths])
  obtain ⟨n, hn⟩ := Option.ne_none_iff_exists'.mp hl
  exact (g.outputMap.count_of_checkedLen hn).2

theorem filters_eq (h : g.validate = .ok ()) : g.channels * g.depthMultiplier = g.filters :=
  Nat.mul_div_cancel' (Nat.dvd_of_mod_eq_zero (validate_eq_ok.mp h).2.2.1)

/-- The check passes when every buffer has its length. -/
theorem checkOperands_eq_ok {input weights biases output : Nat} :
    g.checkOperands input weights biases output = .ok () ↔
      g.inputMap.len = input ∧ g.filterBank.len = weights ∧ g.filters = biases ∧
        g.outputMap.len = output := by
  have hfind :
      (g.operandLengths input weights biases output).find? (fun l => l.2.1 != l.2.2) = none ↔
        g.inputMap.len = input ∧ g.filterBank.len = weights ∧ g.filters = biases ∧
          g.outputMap.len = output := by
    simp [List.find?_eq_none, operandLengths]
  rw [← hfind, checkOperands]
  cases (g.operandLengths input weights biases output).find? fun l => l.2.1 != l.2.2 <;> simp

end Depthwise.Geometry
