import Depthwise.Geometry.Padding
import Depthwise.Json.Decode

/-!
# Geometries as JSON

A layer configuration is the record of its fourteen numbers.  The pads may be left out: a missing
leading pad is zero, a missing or `null` trailing pad absent.  An absent trailing pad is not
written.
-/

namespace Depthwise

open Json (Value Reading ReadFault Schema RecordField)

def Padding.toJson (padding : Padding) : Value := .text padding.name

def Padding.ofJson : Reading → Except ReadFault Padding :=
  Reading.choice (Padding.all.map fun padding => (padding.name, padding))

namespace Geometry

/-- A field that holds a count. -/
def countField (name : String) (required : Bool) (set : Nat → Geometry → Geometry) :
    RecordField Geometry :=
  ⟨name, required, fun r => (r.natural "usize" Count.limit).map set⟩

/-- A field that may hold a count. -/
def optionalField (name : String) (set : Option Nat → Geometry → Geometry) : RecordField Geometry :=
  ⟨name, false, fun r => (r.optional (·.natural "usize" Count.limit)).map set⟩

/-- The record of a geometry. -/
def schema : Schema Geometry where
  name := "ConvShape"
  initial := ⟨⟨⟨0, 0, 0⟩, 0, 0, none⟩, ⟨⟨0, 0, 0⟩, 0, 0, none⟩, 0, 0⟩
  fields :=
    [countField "in_height" true fun n g => { g with rows.input := n },
      countField "in_width" true fun n g => { g with cols.input := n },
      countField "n_chan" true fun n g => { g with channels := n },
      countField "out_height" true fun n g => { g with rows.out := n },
      countField "out_width" true fun n g => { g with cols.out := n },
      countField "n_filt" true fun n g => { g with filters := n },
      countField "filt_height" true fun n g => { g with rows.filt := n },
      countField "filt_width" true fun n g => { g with cols.filt := n },
      countField "stride_height" true fun n g => { g with rows.stride := n },
      countField "stride_width" true fun n g => { g with cols.stride := n },
      countField "pad_top" false fun n g => { g with rows.before := n },
      optionalField "pad_bottom" fun n g => { g with rows.after := n },
      countField "pad_left" false fun n g => { g with cols.before := n },
      optionalField "pad_right" fun n g => { g with cols.after := n }]

/-- Read a geometry; it is not validated. -/
def ofJson : Reading → Except ReadFault Geometry := schema.read

/-- The member of a trailing pad, if there is one. -/
def padMember (name : String) (pad : Option Nat) : List (String × Value) :=
  pad.toList.map fun (n : Nat) => (name, .integer n)

/-- Write a geometry. -/
def toJson (g : Geometry) : Value :=
  .object
    ([("in_height", .integer g.rows.input), ("in_width", .integer g.cols.input),
        ("n_chan", .integer g.channels), ("out_height", .integer g.rows.out),
        ("out_width", .integer g.cols.out), ("n_filt", .integer g.filters),
        ("filt_height", .integer g.rows.filt), ("filt_width", .integer g.cols.filt),
        ("stride_height", .integer g.rows.stride), ("stride_width", .integer g.cols.stride),
        ("pad_top", .integer g.rows.before)] ++
      padMember "pad_bottom" g.rows.after ++ [("pad_left", .integer g.cols.before)] ++
      padMember "pad_right" g.cols.after)

end Geometry

end Depthwise
