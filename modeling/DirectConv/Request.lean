import DirectConv.Plan

/-!
# Requests

A request asks for a convolution of a given shape. It can choose the vector unit and the number of
rows of a block; otherwise the unit of the process and the choice of the regime are used. A request
is rejected before anything is computed, or it is carried out completely. Where a size overflows or
memory has no room, it ends in a fault; as everywhere, sizes are computed with overflow checks.

## Main definitions

- `DirectConv.Request`: what is asked for
- `DirectConv.Request.plan`: the plan of the request
- `DirectConv.Request.execute`: write the convolution into a buffer
- `DirectConv.Request.compute`: the convolution in a buffer of its own
- `DirectConv.convolve`, `DirectConv.convolved`: the same for requests that choose nothing
-/

namespace DirectConv

/-- A convolution that is asked for. -/
structure Request where
  shape : Shape
  /-- The vector unit to use instead of that of the process. -/
  unit : Option VectorUnit
  /-- The rows of a block to use instead of those the regime chooses. -/
  block : Option Nat
  deriving DecidableEq

/-- What a request leaves behind. -/
structure Outcome (α : Type) where
  buffer : Array α
  /-- Why the request was rejected, if it was. -/
  rejection : Option Rejection
  /-- What was reported. -/
  log : Array LogEntry
  deriving DecidableEq

namespace Request

/-- A request that chooses neither the unit nor the block. -/
def standard (shape : Shape) : Request := ⟨shape, none, none⟩

/-- The plan of the request in a process with the unit `ambient`. -/
def plan (request : Request) (R : Regime) (ambient : VectorUnit) : Except Rejection Plan :=
  Plan.make R request.shape (request.unit.getD ambient) request.block

/-- Convolve `input` with `weights` and write the result over `output`. A rejected request leaves
`output` as it is. -/
def execute (request : Request) (R : Regime) (ambient : VectorUnit) (output : Array R.Output)
    (input : Array R.Input) (weights : Array R.Weight) : Except Fault (Outcome R.Output) :=
  match request.plan R ambient with
  | .error rejection => return ⟨output, some rejection, #[]⟩
  | .ok plan => do
    match ← request.shape.checkBuffers input.size weights.size output.size with
    | .error rejection => return ⟨output, some rejection, #[]⟩
    | .ok () =>
      let (buffer, log) ← plan.run R output input weights
      return ⟨buffer, none, log⟩

/-- Convolve `input` with `weights`. The result is a buffer of its own, which is as long as the
shape asks for, and empty if the request is rejected. It is made before the lengths of the other two
buffers are computed, and needs room in memory even if these turn out not to fit the shape. -/
def compute (request : Request) (R : Regime) (ambient : VectorUnit) (input : Array R.Input)
    (weights : Array R.Weight) : Except Fault (Outcome R.Output) :=
  match request.plan R ambient with
  | .error rejection => return ⟨#[], some rejection, #[]⟩
  | .ok plan => do
    let length ← request.shape.outputLength
    Memory.reserve length R.footprint.output
    match ← request.shape.checkBuffers input.size weights.size length with
    | .error rejection => return ⟨#[], some rejection, #[]⟩
    | .ok () =>
      let output := Array.replicate length R.vacantOutput
      let (buffer, log) ← plan.run R output input weights
      return ⟨buffer, none, log⟩

end Request

/-- Convolve `input` with `weights` and write the result over `output`. -/
def convolve (R : Regime) (ambient : VectorUnit) (output : Array R.Output)
    (input : Array R.Input) (weights : Array R.Weight) (shape : Shape) :
    Except Fault (Outcome R.Output) :=
  (Request.standard shape).execute R ambient output input weights

/-- Convolve `input` with `weights` into a buffer of its own. -/
def convolved (R : Regime) (ambient : VectorUnit) (input : Array R.Input)
    (weights : Array R.Weight) (shape : Shape) : Except Fault (Outcome R.Output) :=
  (Request.standard shape).compute R ambient input weights

end DirectConv
