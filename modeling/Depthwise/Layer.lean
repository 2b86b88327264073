import Depthwise.Kernel

/-!
# Frozen layers

A layer keeps its weights and biases with its configuration.  Their lengths are checked once, when
it is frozen, so a run can only be refused for its input or its output buffer.
-/

namespace Depthwise

/-- A configuration with weights and biases of the right lengths. -/
structure Layer (D W P B A O : Type) where
  config : Config D W P B A O
  weights : Array W
  biases : Array B
  weights_size : weights.size = config.geometry.filterBank.len
  biases_size : biases.size = config.geometry.filters

namespace Layer

variable {D W P B A O : Type}

/-- The layer of a configuration, its weights and its biases, the weights being checked first. -/
def make (config : Config D W P B A O) (weights : Array W) (biases : Array B) :
    Except Fault (Layer D W P B A O) :=
  let g := config.geometry
  if hw : weights.size = g.filterBank.len then
    if hb : biases.size = g.filters then .ok ⟨config, weights, biases, hw, hb⟩
    else .error (.lengthMismatch .biases g.filters biases.size)
  else .error (.lengthMismatch .weights g.filterBank.len weights.size)

/-- The record of a frozen layer. -/
def frozenRecord (g : Geometry) : Log.Record where
  level := .debug
  text :=
    s!"FrozenDepthwiseConv2D: {g.inputText} -> {g.outputText} " ++
      s!"(depth_multiplier={g.depthMultiplier})"

/-- Make a layer and report it. -/
def freeze (config : Config D W P B A O) (weights : Array W) (biases : Array B) :
    ExceptT Fault Logged (Layer D W P B A O) := do
  let layer ← ExceptT.mk (pure (make config weights biases))
  Logged.record (frozenRecord config.geometry)
  return layer

variable (layer : Layer D W P B A O)

/-- The kind of layer. -/
def name : String := "DepthwiseConv2D"

/-- The length of an output. -/
def outputLen : Nat := layer.config.geometry.outputMap.len

/-- Run the layer over an output buffer. -/
def forwardInto (input : Array D) (output : Array O) : Run O :=
  layer.config.compute input layer.weights layer.biases output

/-- Run the layer into a fresh buffer, filled with `fresh`. -/
def forward (fresh : O) (input : Array D) : ExceptT Fault Logged (Array O) :=
  let run := layer.forwardInto input (Array.replicate layer.outputLen fresh)
  ExceptT.mk ⟨run.result.map fun _ => run.output, run.log⟩

end Layer

end Depthwise
