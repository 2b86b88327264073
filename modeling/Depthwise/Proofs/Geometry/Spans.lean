import Depthwise.Geometry.Valid

/-!
# Consistent spans

`Span.check_eq_ok` takes the check of one axis apart: the padded extents fit, and the number of
windows is the one the padded axis gives, or with no trailing pad at most the number of steps that
start before the end of the leading-padded input.  Either way the last window ends at a count that
fits (`Span.reach_le`), which is what the kernel's own arithmetic needs.
-/

namespace Depthwise

theorem windowCount_eq_ok {axis : Axis} {padded filt stride n : Nat} :
    windowCount axis padded filt stride = .ok n ↔
      stride ≠ 0 ∧ filt ≤ padded ∧ (padded - filt) / stride + 1 = n := by
  simp only [windowCount, seq_eq_ok, require_eq_ok, pure, Except.pure, Except.ok.injEq]

namespace Span

variable {s : Span} {axis : Axis}

/-- The check of an axis with a trailing pad. -/
theorem check_eq_ok_of_after {after : Nat} (h : s.after = some after) :
    s.check axis = .ok () ↔
      s.input + s.before + after ≤ Count.limit ∧ s.stride ≠ 0 ∧
        s.filt ≤ s.input + s.before + after ∧
        (s.input + s.before + after - s.filt) / s.stride + 1 = s.out := by
  simp only [check, h, bind_eq_ok, demand_eq_ok, Count.add?_eq_some, windowCount_eq_ok,
    require_eq_ok]
  constructor
  · rintro ⟨_, ⟨-, rfl⟩, _, ⟨hfit, rfl⟩, _, ⟨hs, hf, rfl⟩, ho⟩
    exact ⟨hfit, hs, hf, ho⟩
  · rintro ⟨hfit, hs, hf, ho⟩
    exact ⟨_, ⟨by omega, rfl⟩, _, ⟨hfit, rfl⟩, _, ⟨hs, hf, rfl⟩, ho⟩

/-- The check of an axis without a trailing pad. -/
theorem check_eq_ok_of_open (h : s.after = none) :
    s.check axis = .ok () ↔
      s.input + s.before ≤ Count.limit ∧ (s.out - 1) * s.stride + s.filt ≤ Count.limit ∧
        s.out ≤ (s.input + s.before - 1) / s.stride + 1 := by
  simp only [check, h, bind_eq_ok, demand_eq_ok, Count.add?_eq_some, Count.mul?_eq_some,
    require_eq_ok]
  constructor
  · rintro ⟨_, ⟨hfit, rfl⟩, _, ⟨-, rfl⟩, _, ⟨hreach, -⟩, ho⟩
    exact ⟨hfit, hreach, ho⟩
  · rintro ⟨hfit, hreach, ho⟩
    exact ⟨_, ⟨hfit, rfl⟩, _, ⟨by omega, rfl⟩, _, ⟨hreach, rfl⟩, ho⟩

/-- The last window ends at a count that fits. -/
theorem reach_le (h : s.check axis = .ok ()) :
    (s.out - 1) * s.stride + s.filt ≤ Count.limit := by
  cases ha : s.after with
  | some after =>
      obtain ⟨hfit, -, hf, ho⟩ := (check_eq_ok_of_after ha).mp h
      have hsteps : (s.out - 1) * s.stride ≤ s.input + s.before + after - s.filt := by
        rw [← ho, Nat.add_sub_cancel]
        exact Nat.div_mul_le_self _ _
      omega
  | none => exact ((check_eq_ok_of_open ha).mp h).2.1

/-- So does every cell of every window. -/
theorem cell_le (h : s.check axis = .ok ()) {o k : Nat} (ho : o < s.out) (hk : k < s.filt) :
    o * s.stride + k ≤ Count.limit :=
  calc o * s.stride + k ≤ (s.out - 1) * s.stride + s.filt :=
        Nat.add_le_add (Nat.mul_le_mul_right _ (Nat.le_sub_one_of_lt ho)) (Nat.le_of_lt hk)
    _ ≤ Count.limit := reach_le h

end Span

end Depthwise
