import Depthwise.Proofs.Geometry.Consistent
import Depthwise.Proofs.Kernel.Output

/-!
# What the kernel refuses

A run looks at nothing but the lengths of its buffers before it starts.  On a valid geometry the
lengths it asks for are the products of the extents (`Geometry.demands`), however they are
multiplied out and although the products it computes saturate (`operandLengths_eq`).  It is refused
for the first buffer of another length (`FirstUnmet`).

Two runs are the same when they are refused alike, leave alike and report alike (`compute_congr`).

`compute_outcome`: a refused run changes nothing and reports nothing.  Any other makes one record
and leaves in the output what depends on the input, the weights and the biases alone.
-/

namespace Depthwise

/-- The length a buffer should have, and the length it has. -/
structure Demand where
  operand : Operand
  expected : Nat
  actual : Nat

namespace Demand

def Met (d : Demand) : Prop := d.expected = d.actual

/-- The fault of a buffer of another length. -/
def fault (d : Demand) : Fault := .lengthMismatch d.operand d.expected d.actual

end Demand

/-- `d` is the first of the demands that is not met. -/
def FirstUnmet (demands : List Demand) (d : Demand) : Prop :=
  ¬ d.Met ∧ ∃ before after, demands = before ++ d :: after ∧ ∀ e ∈ before, e.Met

theorem find?_eq_some_iff_firstUnmet {demands : List Demand} {d : Demand} :
    demands.find? (fun d => d.expected != d.actual) = some d ↔ FirstUnmet demands d := by
  simp [List.find?_eq_some_iff_append, FirstUnmet, Demand.Met]

theorem find?_eq_none_iff_met {demands : List Demand} :
    demands.find? (fun d => d.expected != d.actual) = none ↔ ∀ d ∈ demands, d.Met := by
  simp [List.find?_eq_none, Demand.Met]

namespace Geometry

variable {g : Geometry} {input weights biases output : Nat}

/-- The exact lengths the four buffers should have, in the order in which they are looked at. -/
def demands (g : Geometry) (input weights biases output : Nat) : List Demand :=
  [⟨.input, g.rows.input * g.cols.input * g.channels, input⟩,
    ⟨.weights, g.rows.filt * g.cols.filt * g.filters, weights⟩,
    ⟨.biases, g.filters, biases⟩,
    ⟨.output, g.rows.out * g.cols.out * g.filters, output⟩]

/-- The lengths a valid geometry asks for are exact. -/
theorem operandLengths_eq (hv : g.validate = .ok ()) :
    g.operandLengths input weights biases output =
      (g.demands input weights biases output).map fun d => (d.operand, d.expected, d.actual) := by
  have hweights := filterBank_count_eq (validate_eq_ok_iff.mp hv).channels_dvd
  rw [operandLengths, (inputMap_count hv).2, (filterBank_count hv).2, (outputMap_count hv).2,
    hweights]
  rfl

/-- The check looks for the first demand that is not met. -/
theorem checkOperands_eq (hv : g.validate = .ok ()) :
    g.checkOperands input weights biases output =
      match (g.demands input weights biases output).find? fun d => d.expected != d.actual with
      | some d => .error d.fault
      | none => .ok () := by
  rw [checkOperands, operandLengths_eq hv, List.find?_map]
  simp only [Function.comp_def]
  cases (g.demands input weights biases output).find? fun d => d.expected != d.actual <;> rfl

theorem checkOperands_eq_ok_iff (hv : g.validate = .ok ()) :
    g.checkOperands input weights biases output = .ok () ↔
      ∀ d ∈ g.demands input weights biases output, d.Met := by
  rw [checkOperands_eq hv, ← find?_eq_none_iff_met]
  cases (g.demands input weights biases output).find? fun d => d.expected != d.actual <;> simp

theorem checkOperands_eq_error_iff (hv : g.validate = .ok ()) {fault : Fault} :
    g.checkOperands input weights biases output = .error fault ↔
      ∃ d, FirstUnmet (g.demands input weights biases output) d ∧ fault = d.fault := by
  simp only [checkOperands_eq hv, ← find?_eq_some_iff_firstUnmet]
  cases (g.demands input weights biases output).find? fun d => d.expected != d.actual with
  | none => simp
  | some d => simp [eq_comm]

end Geometry

namespace Config

variable {D W P B A O : Type} (cfg : Config D W P B A O) (input : Array D) (weights : Array W)
  (biases : Array B) (output : Array O)

/-- A run is refused for its lengths and for nothing else. -/
theorem result_compute :
    (cfg.compute input weights biases output).result =
      cfg.geometry.checkOperands input.size weights.size biases.size output.size := by
  cases h : cfg.geometry.checkOperands input.size weights.size biases.size output.size with
  | ok => rw [compute_of_ok cfg h]
  | error fault => rw [compute_of_error cfg h]

/-- Runs that are refused alike, leave alike and report alike are the same. -/
theorem compute_congr {D' W' P' B' A' : Type} (cfg' : Config D' W' P' B' A' O) (input' : Array D')
    (weights' : Array W') (biases' : Array B')
    (hcheck : cfg'.geometry.checkOperands input'.size weights'.size biases'.size output.size =
      cfg.geometry.checkOperands input.size weights.size biases.size output.size)
    (hrecord : cfg'.runRecord = cfg.runRecord)
    (houtput : cfg.geometry.checkOperands input.size weights.size biases.size output.size = .ok () →
      (cfg'.compute input' weights' biases' output).output =
        (cfg.compute input weights biases output).output) :
    cfg'.compute input' weights' biases' output = cfg.compute input weights biases output := by
  cases lens : cfg.geometry.checkOperands input.size weights.size biases.size output.size with
  | error fault => rw [cfg.compute_of_error lens, cfg'.compute_of_error (hcheck.trans lens)]
  | ok =>
      have hout := houtput lens
      rw [cfg.compute_of_ok lens, cfg'.compute_of_ok (hcheck.trans lens)] at hout ⊢
      rw [hrecord]
      exact congrArg (Run.mk (.ok ()) · [cfg.runRecord]) hout

variable {cfg input weights biases output}

/-- A refused run changes nothing and reports nothing. -/
theorem unchanged_of_refused (h : (cfg.compute input weights biases output).result ≠ .ok ()) :
    (cfg.compute input weights biases output).output = output ∧
      (cfg.compute input weights biases output).log = [] := by
  rw [result_compute] at h
  cases hlens : cfg.geometry.checkOperands input.size weights.size biases.size output.size with
  | ok => exact absurd hlens h
  | error fault =>
      rw [cfg.compute_of_error hlens]
      exact ⟨rfl, rfl⟩

/-- What a run leaves does not depend on what was in the output. -/
theorem output_congr_of_ok (h : (cfg.compute input weights biases output).result = .ok ())
    {output' : Array O} (hsize : output'.size = output.size) :
    (cfg.compute input weights biases output').result = .ok () ∧
      (cfg.compute input weights biases output').output =
        (cfg.compute input weights biases output).output := by
  have lens := (cfg.result_compute input weights biases output).symm.trans h
  have lens' : cfg.geometry.checkOperands input.size weights.size biases.size output'.size =
      .ok () := hsize ▸ lens
  exact ⟨(cfg.result_compute input weights biases output').trans lens',
    (output_compute cfg lens').trans (output_compute cfg lens).symm⟩

/-- The output keeps its length. -/
theorem size_output_of_ok (h : (cfg.compute input weights biases output).result = .ok ()) :
    (cfg.compute input weights biases output).output.size = output.size := by
  have lens := (cfg.result_compute input weights biases output).symm.trans h
  rw [size_compute cfg lens, ← (Geometry.outputMap_count cfg.valid).2,
    (Geometry.checkOperands_eq_ok.mp lens).2.2.2]

variable (cfg input weights biases output)

/-- **What becomes of a run.**  It succeeds exactly when every buffer has its length, and fails
exactly with the fault of the first that has not.  When it fails the output is as it was and nothing
is reported.  When it succeeds the output has the length it had and is the same whatever it held
before, and one record is made. -/
theorem compute_outcome :
    let run := cfg.compute input weights biases output
    let demands := cfg.geometry.demands input.size weights.size biases.size output.size
    (run.result = .ok () ↔ ∀ d ∈ demands, d.Met) ∧
      (∀ fault, run.result = .error fault ↔ ∃ d, FirstUnmet demands d ∧ fault = d.fault) ∧
      (run.result ≠ .ok () → run.output = output ∧ run.log = []) ∧
      (run.result = .ok () →
        run.output.size = output.size ∧
          (∀ output' : Array O, output'.size = output.size →
            (cfg.compute input weights biases output').result = .ok () ∧
              (cfg.compute input weights biases output').output = run.output) ∧
          ∃ record, run.log = [record] ∧ record.level = .trace) := by
  intro run demands
  have hresult := cfg.result_compute input weights biases output
  refine ⟨?_, ?_, unchanged_of_refused, fun hok => ?_⟩
  · rw [← Geometry.checkOperands_eq_ok_iff cfg.valid, ← hresult]
  · intro fault
    rw [← Geometry.checkOperands_eq_error_iff cfg.valid, ← hresult]
  · have hrun := compute_of_ok cfg (hresult.symm.trans hok)
    exact ⟨size_output_of_ok hok, fun _ => output_congr_of_ok hok,
      cfg.runRecord, congrArg Run.log hrun, rfl⟩

end Config

end Depthwise
