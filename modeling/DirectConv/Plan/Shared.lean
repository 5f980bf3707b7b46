import DirectConv.Plan

/-!
# Plans with several engines

The output planes of a plan can be computed by several engines, each of which takes one filter after
the other. An engine has nothing in common with the other engines, and an output plane is in the
hands of one engine only, so whatever happens at the same time can be told filter by filter, in any
order.

## Main definitions

- `DirectConv.Turn`: an engine takes a filter
- `DirectConv.Plan.takeTurn`: compute the output plane of the filter in its place
- `DirectConv.Plan.runShared`: carry out the plan turn by turn

## Design notes

What several engines report is not ordered, so nothing is kept of it here.
-/

namespace DirectConv

/-- Engine number `engine` takes filter number `filter`. -/
structure Turn where
  engine : Nat
  filter : Nat
  deriving DecidableEq

namespace Plan

/-- Engines that share an output. -/
structure Shared (R : Regime) (b : Blocking) where
  engines : Nat → Engine R b
  output : Array R.Output

variable {R : Regime} {b : Blocking}

/-- Compute the output plane of a filter in its place. -/
def takeTurn (plan : Plan) (planes : Planes R.Input) (tiles : List Tile)
    (weights : Array R.Weight) (shared : Shared R b) (turn : Turn) :
    Except Fault (Shared R b) := do
  let progress := ⟨shared.engines turn.engine, #[], #[]⟩
  let done ← plan.runFilter planes tiles shared.output weights progress turn.filter
  return {
    engines := fun i => if i = turn.engine then done.engine else shared.engines i
    output := Buffer.overwrite shared.output (turn.filter * plan.shape.planeSize)
      done.buffer.toList }

/-- Carry out the plan turn by turn. No engine has computed anything before its first turn. -/
def runShared (R : Regime) (plan : Plan) (turns : List Turn) (output : Array R.Output)
    (input : Array R.Input) (weights : Array R.Weight) : Except Fault (Array R.Output) := do
  let shape := plan.shape
  let tiles ← plan.tiles
  let planes ← Planes.ofArray input shape.channels shape.height shape.width
  require (0 < shape.planeSize) .brokenPrecondition
  let b ← Blocking.of plan.filter plan.block plan.groups plan.maxLanes
  let engine ← Engine.make R b
  let shared ← turns.foldlM (takeTurn plan planes tiles.toList weights)
    { engines := fun _ => engine, output }
  return shared.output

end Plan

end DirectConv
