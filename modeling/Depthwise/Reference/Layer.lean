import Depthwise.Fixed.Spelling
import Depthwise.Geometry.Record
import Depthwise.Layer
import Depthwise.Numerics.Cast
import Depthwise.Numerics.Product
import Depthwise.Reference.Argument
import Depthwise.Unroll

/-!
# Reference layers

A layer as conversion tools call it, to check generated hardware bit by bit: a valid geometry, and
forward runs in the three number systems the tools use.  The geometry is checked when the object is
made and again by every configuration made of it, so a run is only ever refused for its arguments: a
precision that does not parse, or weights, biases or an input of the wrong length.
-/

namespace Depthwise

/-- A valid geometry. -/
structure ReferenceLayer where
  geometry : Geometry
  valid : geometry.validate = .ok ()

namespace ReferenceLayer

open Reference

/-- A call under way: its value or why it is refused, and what it reports. -/
abbrev Call := ExceptT CallFault Logged

/-- A step that reports nothing. -/
def orElse {α : Type} (x : Except CallFault α) : Call α := ExceptT.mk (pure x)

/-- A step of the layer itself. -/
def run {α : Type} (x : ExceptT Fault Logged α) : Call α :=
  ExceptT.adapt CallFault.refused x

/-- A step of the layer itself that reports nothing. -/
def accept {α : Type} (x : Except Fault α) : Call α := run (ExceptT.mk (pure x))

/-! ### Construction -/

/-- The parameters of the constructor. -/
def constructorParameters : Parameters :=
  [("input_shape", true), ("kernel_size", true), ("depth_multiplier", false), ("strides", false),
    ("padding", false)]

/-- The layer of a geometry, if it is valid. -/
def ofGeometry (g : Geometry) : Except Fault ReferenceLayer :=
  match h : g.validate with
  | .ok () => .ok ⟨g, h⟩
  | .error fault => .error fault

/-- The layer with an input shape, a kernel size, strides and a padding mode. -/
def make (given : Arguments) : Call ReferenceLayer := do
  orElse (given.fit constructorParameters)
  let (height, width, channels) ← orElse (given.get "input_shape" (0, 0, 0) Argument.triple)
  let (filtHeight, filtWidth) ← orElse (given.get "kernel_size" (0, 0) Argument.pair)
  let depthMultiplier ← orElse (given.get "depth_multiplier" 1 (Argument.natural 64))
  let (strideHeight, strideWidth) ← orElse (given.get "strides" (1, 1) Argument.pair)
  let padding ← orElse (given.get "padding" "valid" Argument.toText)
  -- the padding's name is judged before the extents
  let padding ← accept (Padding.parse padding)
  let g ← run (Geometry.withPadding ⟨height, filtHeight, strideHeight⟩
    ⟨width, filtWidth, strideWidth⟩ channels depthMultiplier padding)
  accept (ofGeometry g)

/-- The layer of a configuration text. -/
def ofJson (text : String) : Call ReferenceLayer :=
  match Json.decode Geometry.ofJson text with
  | .ok g => accept (ofGeometry g)
  | .error fault => orElse (.error (.badConfig fault))

/-! ### Questions -/

variable (layer : ReferenceLayer)

def toJson : String := layer.geometry.toJson.render

/-- The extents of the output. -/
def outputShape : Nat × Nat × Nat :=
  (layer.geometry.rows.out, layer.geometry.cols.out, layer.geometry.filters)

/-- The pads above, below, to the left and to the right. -/
def pads : Nat × Option Nat × Nat × Option Nat :=
  (layer.geometry.rows.before, layer.geometry.rows.after, layer.geometry.cols.before,
    layer.geometry.cols.after)

/-- The layer in one line. -/
def describe : String :=
  let g := layer.geometry
  s!"DepthwiseConv2D(in={g.inputText}, filt={g.filterText}, stride={g.strideText}, " ++
    s!"out={g.outputText})"

/-! ### Forward runs -/

/-- The configuration with single-precision numbers. -/
def singleConfig : Config Float32 Float32 Float32 Float32 Float32 Float32 :=
  ⟨layer.geometry, plainProduct id id, .native true id id, id, layer.valid⟩

/-- The configuration with eight-bit samples and weights, requantized to eight bits. -/
def byteConfig (q : Requant) : Config Int8 Int8 Int32 Int32 Int32 Int8 :=
  ⟨layer.geometry, plainProduct Int8.toInt32 Int8.toInt32, .native false id id,
    fun a => q.apply a.toInt, layer.valid⟩

/-- The configuration with fixed-point numbers. -/
def fixedConfig (accum result : Precision) : Config Fixed Fixed Fixed Fixed Fixed Fixed :=
  ⟨layer.geometry, plainProduct id id, .stored accum, result.store, layer.valid⟩

/-- A configuration, its geometry being checked as that of any other. -/
def configure {D W P B A O : Type} (cfg : Config D W P B A O) : Call (Config D W P B A O) :=
  accept (Config.make cfg.geometry cfg.product cfg.accumulator cfg.cast)

/-- The multipliers of the unrolled layer. -/
def multiplierCount : Call Nat := do
  let cfg ← configure layer.singleConfig
  return (UnrollPlan.make cfg.geometry true).taps

/-- Run a configuration on an input, weights and biases. -/
def forward {D W P B A O : Type} (cfg : Config D W P B A O) (fresh : O) (input : Array D)
    (weights : Array W) (biases : Array B) : Call (Array O) := do
  let cfg ← configure cfg
  run do
    let frozen ← Layer.freeze cfg weights biases
    frozen.forward fresh input

/-- Run in single precision. -/
def forwardSingle (input weights biases : Array Float32) : Call (Array Float32) :=
  forward layer.singleConfig 0 input weights biases

/-- The requantization shift given, or the one for the window's size. -/
def requantFor (multiplier : Int32) (shift : Option Nat) : Requant :=
  ⟨multiplier, shift.getD
    (Requant.shiftFor (Count.mulSat layer.geometry.rows.filt layer.geometry.cols.filt))⟩

/-- Run with eight-bit numbers. -/
def forwardBytes (input weights : Array Int8) (biases : Array Int32) (multiplier : Int32)
    (shift : Option Nat) : Call (Array Int8) :=
  forward (layer.byteConfig (layer.requantFor multiplier shift)) 0 input weights biases

/-- Run in fixed point, the reals being stored in the first three precisions. -/
def forwardFixed (input weights biases : Array Float)
    (data weight bias accum result : String) : Call (Array Float) := do
  let data ← accept (Precision.parse data)
  let weight ← accept (Precision.parse weight)
  let bias ← accept (Precision.parse bias)
  let accum ← accept (Precision.parse accum)
  let result ← accept (Precision.parse result)
  let output ← forward (layer.fixedConfig accum result) .zero (input.map data.ofFloat)
    (weights.map weight.ofFloat) (biases.map bias.ofFloat)
  return output.map Fixed.toFloat

/-! ### Calls -/

/-- What a reference layer can be asked. -/
inductive Method where
  | describe
  | toJson
  | outputShape
  | pads
  | depthMultiplier
  | multiplierCount
  | forwardSingle
  | forwardBytes
  | forwardFixed
  deriving DecidableEq, Repr

/-- What a call answers. -/
inductive Reply where
  | text (s : String)
  | count (n : Nat)
  | counts (ns : List (Option Nat))
  | integers (ns : List Int)
  | reals (xs : List Float)

def singleParameters : Parameters := [("input", true), ("weights", true), ("biases", true)]

def byteParameters : Parameters :=
  singleParameters ++ [("requant_m", false), ("requant_shift", false)]

def fixedParameters : Parameters :=
  singleParameters ++
    [("data_t", true), ("weight_t", true), ("bias_t", true), ("accum_t", true), ("result_t", true)]

/-- Read the arguments of a run in single precision and make it. -/
def callSingle (given : Arguments) : Call Reply := do
  orElse (given.fit singleParameters)
  let single (a : Argument) : Except CallFault Float32 := a.toReal.map Float.toFloat32
  let input ← orElse (given.get "input" #[] (Argument.many single))
  let weights ← orElse (given.get "weights" #[] (Argument.many single))
  let biases ← orElse (given.get "biases" #[] (Argument.many single))
  let output ← layer.forwardSingle input weights biases
  return .reals (output.toList.map Float32.toFloat)

/-- Read the arguments of a run with eight-bit numbers and make it. -/
def callBytes (given : Arguments) : Call Reply := do
  orElse (given.fit byteParameters)
  let byte (a : Argument) : Except CallFault Int8 := (a.signedInteger 8).map Int8.ofInt
  let word (a : Argument) : Except CallFault Int32 := (a.signedInteger 32).map Int32.ofInt
  let input ← orElse (given.get "input" #[] (Argument.many byte))
  let weights ← orElse (given.get "weights" #[] (Argument.many byte))
  let biases ← orElse (given.get "biases" #[] (Argument.many word))
  let multiplier ← orElse (given.get "requant_m" 1 word)
  let shift ← orElse (given.get "requant_shift" none (Argument.optional (Argument.natural 32)))
  let output ← layer.forwardBytes input weights biases multiplier shift
  return .integers (output.toList.map Int8.toInt)

/-- Read the arguments of a run in fixed point and make it. -/
def callFixed (given : Arguments) : Call Reply := do
  orElse (given.fit fixedParameters)
  let input ← orElse (given.get "input" #[] (Argument.many Argument.toReal))
  let weights ← orElse (given.get "weights" #[] (Argument.many Argument.toReal))
  let biases ← orElse (given.get "biases" #[] (Argument.many Argument.toReal))
  let data ← orElse (given.get "data_t" "" Argument.toText)
  let weight ← orElse (given.get "weight_t" "" Argument.toText)
  let bias ← orElse (given.get "bias_t" "" Argument.toText)
  let accum ← orElse (given.get "accum_t" "" Argument.toText)
  let result ← orElse (given.get "result_t" "" Argument.toText)
  let output ← layer.forwardFixed input weights biases data weight bias accum result
  return .reals output.toList

/-- Answer a question, which takes no arguments. -/
def ask (given : Arguments) (reply : Reply) : Call Reply := do
  orElse (given.fit [])
  return reply

/-- Call a method. -/
def call (method : Method) (given : Arguments) : Call Reply :=
  match method with
  | .describe => ask given (.text layer.describe)
  | .toJson => ask given (.text layer.toJson)
  | .outputShape =>
    let (h, w, c) := layer.outputShape
    ask given (.counts [some h, some w, some c])
  | .pads =>
    let (top, bottom, left, right) := layer.pads
    ask given (.counts [some top, bottom, some left, right])
  | .depthMultiplier => ask given (.count layer.geometry.depthMultiplier)
  | .multiplierCount => do
    orElse (given.fit [])
    return .count (← layer.multiplierCount)
  | .forwardSingle => layer.callSingle given
  | .forwardBytes => layer.callBytes given
  | .forwardFixed => layer.callFixed given

end ReferenceLayer

end Depthwise
