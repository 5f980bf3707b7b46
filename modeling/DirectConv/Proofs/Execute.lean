import DirectConv.Proofs.Run
import DirectConv.Request

/-!
# Carrying out a request

A request that is accepted for buffers of the right lengths is carried out if there is room for it,
and leaves the convolution of its regime. Without room it ends in the fault that says what is short.

## Main definitions

- `DirectConv.Plan.settle`: what both kinds of requests do once there is a plan
- `DirectConv.Request.HasRoom`, `DirectConv.Request.shortage`: room for a request with a buffer of
  its own, and what it ends in without it

## Main statements

- `DirectConv.Request.execute_ok`, `DirectConv.Request.execute_error`: a request that writes over a
  buffer
- `DirectConv.Request.compute_ok`, `DirectConv.Request.compute_error`: a request with a buffer of
  its own
-/

namespace DirectConv

namespace Plan

variable {R : Regime} {plan : Plan} {input : Array R.Input} {weights : Array R.Weight}
  {output : Array R.Output}

/-- Compare the buffers with the plan, and carry it out if they match. Otherwise `buffer` is left
behind. -/
def settle (R : Regime) (plan : Plan) (buffer output : Array R.Output) (input : Array R.Input)
    (weights : Array R.Weight) : Except Fault (Outcome R.Output) := do
  match ← plan.shape.checkBuffers input.size weights.size output.size with
  | .error rejection => return ⟨buffer, some rejection, #[]⟩
  | .ok () =>
    let (result, log) ← plan.run R output input weights
    return ⟨result, none, log⟩

/-- Lengths that buffers have are machine sizes. -/
theorem Matches.shape_fits (hmatch : plan.Matches input weights output) (hplan : plan.Valid R) :
    plan.shape.Fits :=
  hplan.toValid.fits (hmatch.input_eq ▸ hmatch.input_le) (hmatch.weights_eq ▸ hmatch.weights_le)
    (hmatch.output_eq ▸ hmatch.output_le)

/-- Buffers of the right lengths are accepted, and the plan is run on them. -/
theorem Matches.settle_eq (hmatch : plan.Matches input weights output) (hplan : plan.Valid R)
    (buffer : Array R.Output) : plan.settle R buffer output input weights =
      plan.run R output input weights >>= fun done => .ok ⟨done.1, none, done.2⟩ := by
  have hcheck : plan.shape.checkBuffers input.size weights.size output.size = .ok (.ok ()) := by
    rw [Shape.checkBuffers, hmatch.input_eq, hmatch.weights_eq, hmatch.output_eq,
      bind_of_eq_ok (Shape.lengths_of_fits hplan.toValid (hmatch.shape_fits hplan))]
    simp [pure, Except.pure]
  exact bind_of_eq_ok hcheck _

end Plan

namespace Request

variable {R : Regime} {request : Request} {ambient : VectorUnit} {plan : Plan}
  {input : Array R.Input} {weights : Array R.Weight} {output : Array R.Output}

theorem shape_eq_of_plan (h : request.plan R ambient = .ok plan) : plan.shape = request.shape :=
  (Plan.valid_of_make h).1

theorem valid_of_plan (h : request.plan R ambient = .ok plan) : plan.Valid R :=
  (Plan.valid_of_make h).2

/-- A request that writes over a buffer settles its plan. -/
theorem execute_eq_settle (h : request.plan R ambient = .ok plan) (output : Array R.Output) :
    request.execute R ambient output input weights =
      plan.settle R output output input weights := by
  rw [execute, h, ← shape_eq_of_plan h]
  rfl

theorem execute_ok (h : request.plan R ambient = .ok plan) (hR : R.Sound plan.filter)
    (hroom : plan.HasRoom R) (hmatch : plan.Matches input weights output) :
    ∃ log, request.execute R ambient output input weights = .ok ⟨R.convolution plan.filter
      (plan.planes input hmatch.input_eq) weights plan.shape.outputs, none, log⟩ := by
  have hplan := valid_of_plan h
  obtain ⟨log, hrun⟩ := Plan.run_ok hR hplan hroom hmatch
  exact ⟨log, by rw [execute_eq_settle h, hmatch.settle_eq hplan, bind_of_eq_ok hrun]⟩

theorem execute_error (h : request.plan R ambient = .ok plan) (hR : R.Sound plan.filter)
    (hroom : ¬ plan.HasRoom R) (hmatch : plan.Matches input weights output) :
    request.execute R ambient output input weights = .error plan.shortage := by
  have hplan := valid_of_plan h
  rw [execute_eq_settle h, hmatch.settle_eq hplan,
    bind_of_eq_error (Plan.run_error hR hplan hroom hmatch)]

/-- A request with a buffer of its own settles its plan over a buffer of vacant elements, if there
is room for that. -/
theorem compute_eq_settle (h : request.plan R ambient = .ok plan) (hfits : plan.shape.OutputFits)
    (hroom : plan.shape.outputSize * R.footprint.output ≤ Memory.limit) :
    request.compute R ambient input weights =
      plan.settle R #[] (Array.replicate plan.shape.outputSize R.vacantOutput) input weights := by
  have hreserve : Memory.reserve plan.shape.outputSize R.footprint.output = .ok () :=
    Memory.reserve_eq_ok_iff.2 hroom
  rw [compute, h, ← shape_eq_of_plan h, Plan.settle, Array.size_replicate]
  refine (bind_of_eq_ok (Shape.outputLength_of_fits (valid_of_plan h).toValid hfits) _).trans ?_
  exact bind_of_eq_ok hreserve _

/-- A request with a buffer of its own ends in an overflow if the length of this buffer does not
fit, whatever the other buffers are. -/
theorem compute_overflow (h : request.plan R ambient = .ok plan)
    (hfits : ¬ plan.shape.OutputFits) :
    request.compute R ambient input weights = .error .sizeOverflow := by
  rw [compute, h, ← shape_eq_of_plan h]
  exact bind_of_eq_error (Shape.outputLength_overflow hfits) _

/-- A request with a buffer of its own ends where memory has no room for it, whatever the other
buffers are. -/
theorem compute_exhausted (h : request.plan R ambient = .ok plan) (hfits : plan.shape.OutputFits)
    (hroom : ¬ plan.shape.outputSize * R.footprint.output ≤ Memory.limit) :
    request.compute R ambient input weights = .error .memoryExhausted := by
  rw [compute, h, ← shape_eq_of_plan h]
  refine (bind_of_eq_ok (Shape.outputLength_of_fits (valid_of_plan h).toValid hfits) _).trans ?_
  exact bind_of_eq_error (Memory.reserve_eq_error hroom) _

/-- There is room for a request with a buffer of its own. -/
def HasRoom (plan : Plan) (R : Regime) : Prop :=
  plan.HasRoom R ∧ plan.shape.outputSize * R.footprint.output ≤ Memory.limit

/-- The fault of a request with a buffer of its own without room. The buffer is made first, and
after it what the plan keeps. -/
def shortage (plan : Plan) (R : Regime) : Fault :=
  if plan.shape.outputSize * R.footprint.output ≤ Memory.limit then plan.shortage
  else Memory.shortage plan.shape.outputSize

theorem matches_replicate (hR : R.Sound plan.filter)
    (houtput : plan.shape.outputSize * R.footprint.output ≤ Memory.limit)
    (hinput : input.size = plan.shape.inputSize) (hweights : weights.size = plan.shape.filterSize)
    (hinput' : input.size ≤ Memory.limit) (hweights' : weights.size ≤ Memory.limit) :
    plan.Matches input weights (Array.replicate plan.shape.outputSize R.vacantOutput) where
  input_eq := hinput
  weights_eq := hweights
  output_eq := Array.size_replicate
  input_le := hinput'
  weights_le := hweights'
  output_le := by
    rw [Array.size_replicate]
    exact Memory.le_limit_of_room hR.output_pos houtput

theorem compute_ok (h : request.plan R ambient = .ok plan) (hR : R.Sound plan.filter)
    (hroom : HasRoom plan R) (hinput : input.size = plan.shape.inputSize)
    (hweights : weights.size = plan.shape.filterSize) (hinput' : input.size ≤ Memory.limit)
    (hweights' : weights.size ≤ Memory.limit) :
    ∃ log, request.compute R ambient input weights = .ok ⟨R.convolution plan.filter
      (plan.planes input hinput) weights plan.shape.outputs, none, log⟩ := by
  have hplan := valid_of_plan h
  have hmatch := matches_replicate hR hroom.2 hinput hweights hinput' hweights'
  have hfits := (hmatch.shape_fits hplan).toOutputFits
  obtain ⟨log, hrun⟩ := Plan.run_ok hR hplan hroom.1 hmatch
  exact ⟨log, by
    rw [compute_eq_settle h hfits hroom.2, hmatch.settle_eq hplan, bind_of_eq_ok hrun]⟩

end Request

end DirectConv
