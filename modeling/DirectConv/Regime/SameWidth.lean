import DirectConv.Element
import DirectConv.Regime

/-!
# One type for everything

Input, weights, totals and output have the same element type. Floating-point numbers and
wrap-around integers are convolved in this way.

## Main definitions

- `DirectConv.Regime.sameWidth`: the regime of an element type
-/

namespace DirectConv.Regime

/-- The regime in which everything has the type `α`. A group is one channel. -/
@[reducible] def sameWidth (α : Type) [MacElement α] (name : String) : Regime where
  Input := α
  Weight := α
  Output := α
  Lane := α
  Tap := α
  Cell := α
  name := name
  elementBits := MacElement.bits α
  footprint := ⟨MacElement.bytes α, 32, MacElement.bytes α, MacElement.bytes α⟩
  grouping := .standard
  blockRows := FilterSize.pick 4 6 6 4
  groups channels := channels
  validate _ := .ok ()
  preparation := .copied
  tapAt weights _ filter group position :=
    weights.getD (group * filter.taps + position) MacElement.zero
  lastChannel group := group
  covers planes group row col count := planes.covers group row col count
  laneAt planes group row col := planes.read MacElement.zero group row col
  vacantLane := MacElement.zero
  vacantCell := .pure MacElement.zero
  vacantOutput := MacElement.zero
  totals := .ok 1
  operable := true
  first := MacElement.mul
  later := MacElement.mac
  endGroup _ _ _ cell := cell
  settled _ := true
  result cell := cell

end DirectConv.Regime
