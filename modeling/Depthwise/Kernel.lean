import Depthwise.Geometry.Valid
import Depthwise.Log
import Depthwise.Numerics.Accumulator

/-!
# The convolution kernel

Every output element is a **replica**: a place in the output map, a channel and a depth, with a slot
of its own.  The slot is seeded with its bias and takes the products of its **taps**, the cells of
its window that are not padding, with window rows outer and window columns inner.  Padding cells are
skipped, so no padded copy of the input is made.  Replicas are visited in the order of the output
buffer; finished slots are cast and written over it.

The kernel runs on a `Config`, whose geometry is valid, and on `Operands`, whose lengths match it;
reading is then total.
-/

namespace Depthwise

/-- A cell of a window that lies in the input. -/
structure Tap (g : Geometry) where
  kh : Fin g.rows.filt
  kw : Fin g.cols.filt
  row : Fin g.rows.input
  col : Fin g.cols.input

/-- A place in the output map, a channel and a depth. -/
structure Replica (g : Geometry) where
  h : Fin g.rows.out
  w : Fin g.cols.out
  c : Fin g.channels
  dm : Fin g.depthMultiplier

namespace Geometry

variable (g : Geometry)

/-- The taps of the window at `(h, w)`. -/
def taps (h w : Nat) : List (Tap g) :=
  (g.rows.taps h).flatMap fun r => (g.cols.taps w).map fun q => ⟨r.1, q.1, r.2, q.2⟩

/-- The replicas in the order of the output buffer. -/
def replicas : List (Replica g) :=
  (List.finRange g.rows.out).flatMap fun h =>
    (List.finRange g.cols.out).flatMap fun w =>
      (List.finRange g.channels).flatMap fun c =>
        (List.finRange g.depthMultiplier).map fun dm => ⟨h, w, c, dm⟩

end Geometry

/-- Where a replica stands in the output buffer. -/
def Replica.index {g : Geometry} (r : Replica g) : Nat :=
  g.outputMap.index r.h r.w (g.filterBank.channel r.c r.dm)

/-! ### Operands -/

/-- The three buffers a layer reads, as long as its geometry says. -/
structure Operands (g : Geometry) (D W B : Type) where
  input : Array D
  weights : Array W
  biases : Array B
  input_size : input.size = g.inputMap.count
  weights_size : weights.size = g.filterBank.count
  biases_size : biases.size = g.channels * g.depthMultiplier

namespace Operands

variable {g : Geometry} {D W B : Type} (x : Operands g D W B)

/-- The input at a pixel in a channel. -/
def sample (row : Fin g.rows.input) (col : Fin g.cols.input) (c : Fin g.channels) : D :=
  have h : g.inputMap.index row col c < x.input.size :=
    x.input_size ▸ g.inputMap.index_lt row.isLt col.isLt c.isLt
  x.input[g.inputMap.index row col c]

/-- The weight of a depth at a window cell in a channel. -/
def weight (dm : Fin g.depthMultiplier) (kh : Fin g.rows.filt) (kw : Fin g.cols.filt)
    (c : Fin g.channels) : W :=
  have h : g.filterBank.index dm kh kw c < x.weights.size :=
    x.weights_size ▸ g.filterBank.index_lt dm.isLt kh.isLt kw.isLt c.isLt
  x.weights[g.filterBank.index dm kh kw c]

/-- The bias of a depth of a channel. -/
def bias (c : Fin g.channels) (dm : Fin g.depthMultiplier) : B :=
  have h : g.filterBank.channel c dm < x.biases.size :=
    x.biases_size ▸ g.filterBank.channel_lt c.isLt dm.isLt
  x.biases[g.filterBank.channel c dm]

end Operands

/-! ### Configurations -/

/-- A valid geometry with the rules for products, sums and outputs. -/
structure Config (D W P B A O : Type) where
  geometry : Geometry
  product : D → W → P
  accumulator : Accumulator B P A
  cast : A → O
  valid : geometry.validate = .ok ()

/-- How a run left the output buffer, and what it reported. -/
structure Run (O : Type) where
  result : Except Fault Unit
  output : Array O
  log : List Log.Record

/-- The buffer with `values` written over its beginning. -/
def overwrite {O : Type} (buffer : Array O) (values : List O) : Array O :=
  values.toArray ++ buffer.extract values.length buffer.size

namespace Config

variable {D W P B A O : Type}

/-- The configuration of a geometry, if it is valid. -/
def make (geometry : Geometry) (product : D → W → P) (accumulator : Accumulator B P A)
    (cast : A → O) : Except Fault (Config D W P B A O) :=
  match h : geometry.validate with
  | .ok () => .ok ⟨geometry, product, accumulator, cast, h⟩
  | .error fault => .error fault

variable (cfg : Config D W P B A O)

/-- The products of a replica, in the order they are summed. -/
def products (x : Operands cfg.geometry D W B) (r : Replica cfg.geometry) : List P :=
  (cfg.geometry.taps r.h r.w).map fun t =>
    cfg.product (x.sample t.row t.col r.c) (x.weight r.dm t.kh t.kw r.c)

/-- The finished slot of a replica. -/
def slot (x : Operands cfg.geometry D W B) (r : Replica cfg.geometry) : A :=
  (cfg.products x r).foldl cfg.accumulator.accumulate (cfg.accumulator.seed (x.bias r.c r.dm))

/-- The outputs in the order of the output buffer. -/
def outputs (x : Operands cfg.geometry D W B) : List O :=
  cfg.geometry.replicas.map fun r => cfg.cast (cfg.slot x r)

/-- The record of a run. -/
def runRecord : Log.Record where
  level := .trace
  text :=
    let g := cfg.geometry
    s!"depthwise_conv_2d: in={g.inputText} filt={g.filterText} stride={g.strideText} " ++
      s!"out={g.outputText}"

/-- The operands in three buffers whose lengths have been checked. -/
def operands {input : Array D} {weights : Array W} {biases : Array B} {output : Nat}
    (h : cfg.geometry.checkOperands input.size weights.size biases.size output = .ok ()) :
    Operands cfg.geometry D W B :=
  have e := Geometry.checkOperands_eq_ok.mp h
  ⟨input, weights, biases,
    e.1.symm.trans (Geometry.inputMap_count cfg.valid).2,
    e.2.1.symm.trans (Geometry.filterBank_count cfg.valid).2,
    e.2.2.1.symm.trans (Geometry.filters_eq cfg.valid).symm⟩

/-- Run the kernel over an output buffer.  On a fault nothing is written and nothing reported. -/
def compute (input : Array D) (weights : Array W) (biases : Array B) (output : Array O) : Run O :=
  match h : cfg.geometry.checkOperands input.size weights.size biases.size output.size with
  | .ok () => ⟨.ok (), overwrite output (cfg.outputs (cfg.operands h)), [cfg.runRecord]⟩
  | .error fault => ⟨.error fault, output, []⟩

/-- Buffers of the right lengths are computed on. -/
theorem compute_of_ok {input : Array D} {weights : Array W} {biases : Array B} {output : Array O}
    (h : cfg.geometry.checkOperands input.size weights.size biases.size output.size = .ok ()) :
    cfg.compute input weights biases output =
      ⟨.ok (), overwrite output (cfg.outputs (cfg.operands h)), [cfg.runRecord]⟩ := by
  unfold compute
  split
  · rfl
  · rename_i e
    cases e.symm.trans h

/-- Buffers of other lengths are left alone. -/
theorem compute_of_error {input : Array D} {weights : Array W} {biases : Array B}
    {output : Array O} {fault : Fault}
    (h : cfg.geometry.checkOperands input.size weights.size biases.size output.size =
      .error fault) :
    cfg.compute input weights biases output = ⟨.error fault, output, []⟩ := by
  unfold compute
  split
  · rename_i e
    cases e.symm.trans h
  · rename_i e
    cases e.symm.trans h
    rfl

end Config

end Depthwise
