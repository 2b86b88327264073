import Depthwise.Geometry.Valid

/-!
# Unrolling

In hardware every loop of the kernel is unrolled.  The loops over the output are independent
**replicas**; the two loops over the window form one reduction in each.  A plan counts the replicas,
the multipliers after padding is pruned, and the largest reduction, and says whether its terms must
be taken in order.
-/

namespace Depthwise

-- Sums are those of the core library, whatever else is imported.
attribute [local instance (high)] Zero.ofOfNat0

/-- A loop of the kernel. -/
inductive LoopDim where
  | depthMultiplier
  | outRow
  | outCol
  | channel
  | filterRow
  | filterCol
  deriving DecidableEq, Repr

def LoopDim.label : LoopDim → String
  | depthMultiplier => "DepthMultiplier"
  | outRow => "OutRow"
  | outCol => "OutCol"
  | channel => "Channel"
  | filterRow => "FilterRow"
  | filterCol => "FilterCol"

/-- How the products of a replica may be summed. -/
inductive Reduction where
  /-- The bias first, then the taps row by row. -/
  | ordered
  /-- In any association and order. -/
  | tree
  deriving DecidableEq, Repr

def Reduction.label : Reduction → String
  | ordered => "Ordered"
  | tree => "Tree"

/-- The number of taps of each window of a span. -/
def Span.tapCounts (s : Span) : List Nat := (List.range s.out).map fun o => (s.taps o).length

/-- The size of an unrolled layer. -/
structure UnrollPlan where
  replicas : Nat
  /-- The multipliers of the whole layer, or the largest count. -/
  taps : Nat
  /-- The most taps of one replica, or the largest count. -/
  maxTaps : Nat
  reduction : Reduction
  deriving DecidableEq, Repr

namespace UnrollPlan

/-- The loops without dependencies between their rounds. -/
def parallel : List LoopDim := [.depthMultiplier, .outRow, .outCol, .channel]

/-- The loops reduced into one slot, outer first. -/
def reduced : List LoopDim := [.filterRow, .filterCol]

/-- The plan of a geometry with an accumulator that is or is not sensitive to order. -/
def make (g : Geometry) (orderSensitive : Bool) : UnrollPlan where
  replicas := g.outputMap.len
  -- a tap is a row tap with a column tap, whatever the channel and the depth
  taps := Count.mulSat (Count.mulSat g.rows.tapCounts.sum g.cols.tapCounts.sum) g.filters
  maxTaps := Count.mulSat (g.rows.tapCounts.foldl max 0) (g.cols.tapCounts.foldl max 0)
  reduction := if orderSensitive then .ordered else .tree

theorem replicas_make {g : Geometry} (h : g.validate = .ok ()) (orderSensitive : Bool) :
    (make g orderSensitive).replicas = g.outputMap.count := (g.outputMap_count h).2

end UnrollPlan

end Depthwise
