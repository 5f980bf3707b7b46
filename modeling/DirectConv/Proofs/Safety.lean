import DirectConv.Proofs.Execute
import DirectConv.Proofs.Precision

/-!
# Safety of requests

A request is rejected, and then it leaves the buffer it was given as it is, or it is carried out
completely. No index is out of range, no divisor is zero and no precondition is broken on the way.
What can be missing is room in memory.

## Main statements

- `DirectConv.Request.execute_safe`: what can become of a request
-/

namespace DirectConv

/-- Where the lengths of a shape exist, the buffers are accepted or rejected. -/
theorem Shape.checkBuffers_verdict {shape : Shape} {lengths : Lengths}
    (h : shape.lengths = .ok lengths) (input filter output : Nat) :
    (∃ rejection, shape.checkBuffers input filter output = .ok (.error rejection)) ∨
      shape.checkBuffers input filter output = .ok (.ok ()) ∧ input = shape.inputSize ∧
        filter = shape.filterSize ∧ output = shape.outputSize := by
  obtain rfl := lengths_exact h
  rw [checkBuffers, bind_of_eq_ok h]
  simp only [pure, Except.pure]
  split
  · exact Or.inl ⟨_, rfl⟩
  · split
    · exact Or.inl ⟨_, rfl⟩
    · split
      · exact Or.inl ⟨_, rfl⟩
      · rename_i hinput hfilter houtput
        exact Or.inr ⟨rfl, (not_not.1 hinput).symm, (not_not.1 hfilter).symm,
          (not_not.1 houtput).symm⟩

namespace Request

/-- A request is rejected for its plan or for its buffers, and leaves the output as it is, or it is
carried out. The latter needs room for what an engine keeps, and without it the request ends in the
fault that says what is short; nothing else can fail. Elements have bits to divide a register by,
and the last block of a plane is neither empty nor longer than the others. -/
theorem execute_safe (precision : Precision) (request : Request) (ambient : VectorUnit)
    (output : Array precision.regime.Output) (input : Array precision.regime.Input)
    (weights : Array precision.regime.Weight) (houtput : output.size ≤ Memory.limit)
    (hinput : input.size ≤ Memory.limit) (hweights : weights.size ≤ Memory.limit) :
    0 < precision.regime.elementBits ∧
    (∀ rejection, request.plan precision.regime ambient = .error rejection →
      request.execute precision.regime ambient output input weights =
        .ok ⟨output, some rejection, #[]⟩) ∧
    ∀ plan lengths, request.plan precision.regime ambient = .ok plan →
      request.shape.lengths = .ok lengths →
        (∃ hblock : 0 < plan.block,
          let schedule := Schedule.ofRows plan.block plan.shape.outHeight hblock
          0 < schedule.drain.rows ∧ schedule.drain.rows ≤ plan.block) ∧
        ((∃ rejection,
          request.shape.checkBuffers input.size weights.size output.size =
            .ok (.error rejection) ∧
          request.execute precision.regime ambient output input weights =
            .ok ⟨output, some rejection, #[]⟩) ∨
        request.shape.checkBuffers input.size weights.size output.size = .ok (.ok ()) ∧
          (plan.HasRoom precision.regime → ∃ result log,
            request.execute precision.regime ambient output input weights =
              .ok ⟨result, none, log⟩ ∧ result.size = output.size) ∧
          (¬ plan.HasRoom precision.regime →
            request.execute precision.regime ambient output input weights =
              .error plan.shortage)) := by
  refine ⟨precision.elementBits_pos, ?_, ?_⟩
  · intro rejection hrejected
    rw [execute, hrejected]
    rfl
  · intro plan lengths hplan hlengths
    have hvalid := valid_of_plan hplan
    have hR := precision.sound hvalid.accepted
    refine ⟨⟨hvalid.block_pos, Schedule.drain_rows hvalid.block_pos hvalid.outHeight_pos⟩, ?_⟩
    rcases Shape.checkBuffers_verdict hlengths input.size weights.size output.size with
      ⟨rejection, hcheck⟩ | ⟨hcheck, hinput', hweights', houtput'⟩
    · refine Or.inl ⟨rejection, hcheck, ?_⟩
      rw [execute, hplan]
      exact bind_of_eq_ok hcheck _
    · rw [← shape_eq_of_plan hplan] at hinput' hweights' houtput'
      have hmatch : plan.Matches input weights output :=
        ⟨hinput', hweights', houtput', hinput, hweights, houtput⟩
      refine Or.inr ⟨hcheck, ?_, ?_⟩
      · intro hroom
        obtain ⟨log, hrun⟩ := execute_ok hplan hR hroom hmatch
        refine ⟨_, log, hrun, ?_⟩
        rw [houtput', Regime.convolution, Array.size_ofFn]
        simp only [Plan.planes, hvalid.outHeight_eq, hvalid.outWidth_eq]
        rfl
      · intro hroom
        exact execute_error hplan hR hroom hmatch

/-- A plane of a single window is convolved, and an input that is too short leaves the output as it
is. -/
theorem execute_safe_single_window :
    (∃ result log, execute ⟨⟨3, 3, 1, 3, 1⟩, none, none⟩ (Precision.widening .int8).regime .standard
      #[7#32] (Array.replicate 9 2#8) (Array.replicate 9 3#8) = .ok ⟨result, none, log⟩ ∧
        result.size = 1) ∧
    ∃ rejection, execute ⟨⟨3, 3, 1, 3, 1⟩, none, none⟩ (Precision.widening .int8).regime .standard
      #[7#32] (Array.replicate 8 2#8) (Array.replicate 9 3#8) =
        .ok ⟨#[7#32], some rejection, #[]⟩ := by
  have hplan : plan ⟨⟨3, 3, 1, 3, 1⟩, none, none⟩ (Precision.widening .int8).regime .standard =
      .ok ⟨⟨3, 3, 1, 3, 1⟩, .three, 3, 8, 1⟩ := rfl
  constructor
  · obtain ⟨-, -, hsafe⟩ := execute_safe (.widening .int8) ⟨⟨3, 3, 1, 3, 1⟩, none, none⟩ .standard
      #[7#32] (Array.replicate 9 2#8) (Array.replicate 9 3#8) (by decide) (by decide) (by decide)
    obtain ⟨-, ⟨rejection, hcheck, -⟩ | ⟨-, hroom, -⟩⟩ := hsafe _ ⟨1, 1, 9, 9, 1⟩ hplan rfl
    · cases hcheck
    · exact hroom ⟨by decide, fun _ _ => by decide⟩
  · obtain ⟨-, -, hsafe⟩ := execute_safe (.widening .int8) ⟨⟨3, 3, 1, 3, 1⟩, none, none⟩ .standard
      #[7#32] (Array.replicate 8 2#8) (Array.replicate 9 3#8) (by decide) (by decide) (by decide)
    obtain ⟨-, ⟨rejection, -, hrejected⟩ | ⟨hcheck, -⟩⟩ := hsafe _ ⟨1, 1, 9, 9, 1⟩ hplan rfl
    · exact ⟨rejection, hrejected⟩
    · cases hcheck

/-- A plan and its buffers can be accepted, and all sizes be machine sizes, although memory has no
room for the accumulators. -/
theorem execute_safe_without_room :
    plan ⟨⟨1, 1, 1, 1, 1⟩, none, some 288230376151711744⟩ (Precision.widening .int8).regime
        .standard = .ok ⟨⟨1, 1, 1, 1, 1⟩, .one, 1, 288230376151711744, 1⟩ ∧
    Shape.checkBuffers ⟨1, 1, 1, 1, 1⟩ #[2#8].size #[3#8].size #[0#32].size = .ok (.ok ()) ∧
    Size.check (288230376151711744 + FilterSize.one.side) = .ok 288230376151711745 ∧
    execute ⟨⟨1, 1, 1, 1, 1⟩, none, some 288230376151711744⟩ (Precision.widening .int8).regime
      .standard #[0#32] #[2#8] #[3#8] = .error .memoryExhausted :=
  ⟨rfl, rfl, rfl, rfl⟩

end Request

end DirectConv
