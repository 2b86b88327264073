import Depthwise.Binary
import Depthwise.Count
import Depthwise.Decimal.Layout
import Depthwise.Decimal.Shortest
import Depthwise.Fault
import Depthwise.Fixed.Display
import Depthwise.Fixed.Mantissa
import Depthwise.Fixed.Overflow
import Depthwise.Fixed.Precision
import Depthwise.Fixed.Real
import Depthwise.Fixed.Record
import Depthwise.Fixed.Rounding
import Depthwise.Fixed.Spelling
import Depthwise.Fixed.Value
import Depthwise.Geometry.Basic
import Depthwise.Geometry.Padding
import Depthwise.Geometry.Record
import Depthwise.Geometry.Span
import Depthwise.Geometry.Valid
import Depthwise.Json.Decode
import Depthwise.Json.Lexical
import Depthwise.Json.Number
import Depthwise.Json.Reading
import Depthwise.Json.Value
import Depthwise.Kernel
import Depthwise.Layer
import Depthwise.Log
import Depthwise.Numerics.Accumulator
import Depthwise.Numerics.Cast
import Depthwise.Numerics.Element
import Depthwise.Numerics.Product
import Depthwise.Proofs.Exact.Arithmetic
import Depthwise.Proofs.Exact.Layer
import Depthwise.Proofs.Exact.Rounding
import Depthwise.Proofs.Exact.Store
import Depthwise.Proofs.Geometry.Spans
import Depthwise.Proofs.Kernel.Output
import Depthwise.Proofs.Kernel.Replicas
import Depthwise.Proofs.Kernel.Window
import Depthwise.Proofs.Kernel.Words
import Depthwise.Reference.Argument
import Depthwise.Reference.Layer
import Depthwise.Tensor
import Depthwise.Text.Blank
import Depthwise.Text.Numeral
import Depthwise.Text.Quoted
import Depthwise.Text.Unshown
import Depthwise.Unroll
import Depthwise.Proofs.Exact.Headroom
import Depthwise.Proofs.Geometry.Consistent
import Depthwise.Proofs.Geometry.Words
import Depthwise.Proofs.Geometry.Derived
import Depthwise.Proofs.Integer.Padded
import Depthwise.Proofs.Integer.Machine
import Depthwise.Proofs.Integer.Layer
import Depthwise.Proofs.Kernel.Channels
import Depthwise.Proofs.Unroll.Adders
import Depthwise.Proofs.Unroll.Counts
import Depthwise.Proofs.Unroll.Schedules
import Depthwise.Proofs.Exact.Powers
import Depthwise.Proofs.Kernel.Refusals
import Depthwise.Proofs.Kernel.Interchange
import Depthwise.Proofs.Kernel.Encodings
import Depthwise.Proofs.Text.Trimmed
import Depthwise.Proofs.Text.Numerals
import Depthwise.Proofs.Fixed.Grammar
import Depthwise.Proofs.Json.Lexemes
import Depthwise.Proofs.Json.Written
import Depthwise.Proofs.Json.Records
import Depthwise.Proofs.Fixed.Routes
import Depthwise.Proofs.Geometry.Record
import Depthwise.Proofs.Reference.Configurations
import Depthwise.Proofs.Kernel.Checks
import Depthwise.Proofs.Layer.Calls
import Depthwise.Proofs.Reference.Calls
import Depthwise.Proofs.Integer.Requantize
import Depthwise.Proofs.Integer.Adaptive
import Depthwise.Proofs.Exact.Representations
import Depthwise.Proofs.Exact.Equality
import Depthwise.Proofs.Exact.Operators
import Depthwise.Proofs.Exact.Wrapping
import Depthwise.Proofs.Binary.Scaling
import Depthwise.Proofs.Exact.Guards
import Depthwise.Proofs.Exact.LowBits
import Depthwise.Proofs.Exact.Monotone
import Depthwise.Proofs.Exact.Symmetric
import Depthwise.Proofs.Exact.Widening
import Depthwise.Proofs.Kernel.Trailing
import Depthwise.Proofs.Integer.Agreement
import Depthwise.Proofs.Tensor.Counts
import Depthwise.Proofs.Tensor.Numbering
import Depthwise.Proofs.Numerics.Signatures
