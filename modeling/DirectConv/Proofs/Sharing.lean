import DirectConv.Plan.Shared
import DirectConv.Proofs.Run

/-!
# Several engines

The turns of a plan can be taken by any engines in any order. A turn leaves the output plane of its
filter, whatever its engine did before, and does not touch the other planes. So as soon as every
filter has had a turn, the output is the one a single engine leaves that takes the filters one after
the other.

## Main definitions

- `DirectConv.Plan.Distributes`: turns for all filters
- `DirectConv.Plan.Served`: the output planes of the filters that have had a turn

## Main statements

- `DirectConv.Plan.takeTurn_served`: the effect of a turn
- `DirectConv.Plan.run_iff_runShared`: one engine and several engines leave the same output
-/

namespace DirectConv.Plan

variable {R : Regime} {plan : Plan}

/-- Turns for filters of the plan, at least one for each of them. -/
structure Distributes (plan : Plan) (turns : List Turn) : Prop where
  filter_lt : ∀ turn ∈ turns, turn.filter < plan.shape.outputs
  complete : ∀ index < plan.shape.outputs, ∃ turn ∈ turns, turn.filter = index

/-- The output planes of the filters in `done` hold the elements of the convolution. -/
structure Served (plan : Plan) (planes : Planes R.Input) (weights : Array R.Weight)
    (done : List Nat) (buffer : Array R.Output) : Prop where
  size_eq : buffer.size = plan.shape.outputs * plan.shape.planeSize
  get : ∀ index ∈ done, index < plan.shape.outputs → ∀ row < plan.shape.outHeight,
    ∀ col < plan.shape.outWidth,
      buffer[(index * plan.shape.outHeight + row) * plan.shape.outWidth + col]? =
        some (R.element plan.filter planes
          (R.bankTap plan.filter plan.shape.channels weights index) row col)

theorem Served.mono {planes : Planes R.Input} {weights : Array R.Weight} {done done' : List Nat}
    {buffer : Array R.Output} (h : plan.Served planes weights done buffer)
    (hsubset : done' ⊆ done) : plan.Served planes weights done' buffer :=
  ⟨h.size_eq, fun index hindex => h.get index (hsubset hindex)⟩

/-- A plane that is written in its place joins the planes that were served before. -/
theorem Served.overwrite {planes : Planes R.Input} {weights : Array R.Weight} {done : List Nat}
    {buffer plane : Array R.Output} (h : plan.Served planes weights done buffer) {filter : Nat}
    (hfilter : filter < plan.shape.outputs) (hsize : plane.size = plan.shape.planeSize)
    (hplane : ∀ row < plan.shape.outHeight, ∀ col < plan.shape.outWidth,
      plane[row * plan.shape.outWidth + col]? = some (R.element plan.filter planes
        (R.bankTap plan.filter plan.shape.channels weights filter) row col)) :
    plan.Served planes weights (filter :: done)
      (Buffer.overwrite buffer (filter * plan.shape.planeSize) plane.toList) := by
  have hend : filter * plan.shape.planeSize + plane.toList.length ≤ buffer.size := by
    rw [h.size_eq, Array.length_toList, hsize, ← Nat.succ_mul]
    exact Nat.mul_le_mul_right _ hfilter
  refine ⟨(Buffer.size_overwrite _ _ _).trans h.size_eq, ?_⟩
  intro index hindex hlt row hrow col hcol
  have hposition : row * plan.shape.outWidth + col < plan.shape.planeSize :=
    mul_add_lt_mul hrow hcol
  have hplace := place_eq plan.shape index row col
  rw [Buffer.getElem?_overwrite _ _ _ hend, Array.length_toList, hsize]
  by_cases hself : index = filter
  · subst hself
    rw [hplace, if_pos ⟨Nat.le_add_right _ _, Nat.add_lt_add_left hposition _⟩,
      Nat.add_sub_cancel_left, Array.getElem?_toList]
    exact hplane row hrow col hcol
  · have hdone : index ∈ done := (List.mem_cons.1 hindex).resolve_left hself
    -- output planes lie in the output like the rows of one plane
    have hother : ¬ (filter * plan.shape.planeSize ≤
          index * plan.shape.planeSize + (row * plan.shape.outWidth + col) ∧
        index * plan.shape.planeSize + (row * plan.shape.outWidth + col) <
          filter * plan.shape.planeSize + plan.shape.planeSize) :=
      Engine.not_in_other_row (Nat.le_of_eq (Nat.zero_add _)) hposition hself
    rw [if_neg (hplace ▸ hother)]
    exact h.get index hdone hlt row hrow col hcol

variable {input : Array R.Input} {weights : Array R.Weight}

/-- A turn serves its filter, whatever its engine did before. -/
theorem takeTurn_served (hR : R.Sound plan.filter) (hplan : plan.Valid R)
    (hroom : plan.HasRoom R) {shared : Shared R (plan.blocking hplan)}
    (hmatch : plan.Matches input weights shared.output) {tiles : List Tile}
    (htiles : ∀ tile ∈ tiles, tile.Inside (plan.blocking hplan) plan.shape.width ∧
      tile.inWidth = tile.outWidth + plan.filter.carry)
    (hcovers : ∀ col < plan.shape.outWidth, ∃ tile ∈ tiles, tile.Covers col) {turn : Turn}
    (hfilter : turn.filter < plan.shape.outputs) {done : List Nat}
    (h : plan.Served (plan.planes input hmatch.input_eq) weights done shared.output) :
    ∃ shared', takeTurn plan (plan.planes input hmatch.input_eq) tiles weights shared turn =
        .ok shared' ∧
      plan.Served (plan.planes input hmatch.input_eq) weights (turn.filter :: done)
        shared'.output := by
  obtain ⟨engine, log, plane, hrun, hsize, hget⟩ := runFilter_plane hR hplan hroom hmatch htiles
    hcovers hfilter ⟨shared.engines turn.engine, #[], #[]⟩
  refine ⟨_, bind_of_eq_ok hrun _, ?_⟩
  have hbuffer : (#[] : Array R.Output) ++ plane = plane := Array.empty_append
  simp only [hbuffer]
  exact h.overwrite hfilter hsize hget

/-- After some turns their filters are served too. -/
theorem takeTurns_served (hR : R.Sound plan.filter) (hplan : plan.Valid R)
    (hroom : plan.HasRoom R) {tiles : List Tile}
    (htiles : ∀ tile ∈ tiles, tile.Inside (plan.blocking hplan) plan.shape.width ∧
      tile.inWidth = tile.outWidth + plan.filter.carry)
    (hcovers : ∀ col < plan.shape.outWidth, ∃ tile ∈ tiles, tile.Covers col)
    {turns : List Turn} (hturns : ∀ turn ∈ turns, turn.filter < plan.shape.outputs)
    (shared : Shared R (plan.blocking hplan))
    (hmatch : plan.Matches input weights shared.output) {done : List Nat}
    (h : plan.Served (plan.planes input hmatch.input_eq) weights done shared.output) :
    ∃ shared', turns.foldlM (takeTurn plan (plan.planes input hmatch.input_eq) tiles weights)
        shared = .ok shared' ∧
      plan.Served (plan.planes input hmatch.input_eq) weights (turns.map (·.filter) ++ done)
        shared'.output := by
  induction turns generalizing shared done with
  | nil => exact ⟨shared, rfl, h⟩
  | cons turn rest ih =>
    obtain ⟨hturn, hrest⟩ := List.forall_mem_cons.1 hturns
    obtain ⟨shared₁, hstep, h₁⟩ := takeTurn_served hR hplan hroom hmatch htiles hcovers hturn h
    have hsize : shared₁.output.size = shared.output.size := h₁.size_eq.trans h.size_eq.symm
    have hmatch₁ : plan.Matches input weights shared₁.output :=
      ⟨hmatch.input_eq, hmatch.weights_eq, hsize.trans hmatch.output_eq, hmatch.input_le,
        hmatch.weights_le, hsize ▸ hmatch.output_le⟩
    obtain ⟨shared₂, hsteps, h₂⟩ := ih hrest shared₁ hmatch₁ h₁
    refine ⟨shared₂, ?_, h₂.mono List.perm_middle.symm.subset⟩
    rw [List.foldlM_cons, bind_of_eq_ok hstep, hsteps]

theorem Served.eq_convolution (hplan : plan.Valid R) (hinput : input.size = plan.shape.inputSize)
    {done : List Nat} {buffer : Array R.Output}
    (h : plan.Served (plan.planes input hinput) weights done buffer)
    (hdone : ∀ index < plan.shape.outputs, index ∈ done) :
    buffer = R.convolution plan.filter (plan.planes input hinput) weights plan.shape.outputs := by
  have hfilled : plan.Filled (plan.planes input hinput) weights plan.shape.outputs buffer :=
    ⟨h.size_eq, fun index hindex => h.get index (hdone index hindex) hindex⟩
  exact hfilled.eq_convolution hplan hinput

variable {output : Array R.Output} {turns : List Turn}

/-- If there is room, turns that serve every filter leave the convolution of the regime. -/
theorem runShared_ok (hR : R.Sound plan.filter) (hplan : plan.Valid R) (hroom : plan.HasRoom R)
    (hmatch : plan.Matches input weights output) (hturns : plan.Distributes turns) :
    runShared R plan turns output input weights = .ok (R.convolution plan.filter
      (plan.planes input hmatch.input_eq) weights plan.shape.outputs) := by
  obtain ⟨cursor, htiles, hplanes, hpositive, hinside, hcovers⟩ :=
    preparations_ok hR hplan hmatch
  have hstart : plan.Served (plan.planes input hmatch.input_eq) weights [] output :=
    ⟨hmatch.output_size, nofun⟩
  obtain ⟨shared, hsteps, h⟩ := takeTurns_served hR hplan hroom hinside hcovers hturns.filter_lt
    ⟨fun _ => Engine.fresh R (plan.blocking hplan), output⟩ hmatch hstart
  have hdone : ∀ index < plan.shape.outputs, index ∈ turns.map (·.filter) ++ [] := by
    intro index hindex
    obtain ⟨turn, hmem, rfl⟩ := hturns.complete index hindex
    exact List.mem_append_left _ (List.mem_map_of_mem hmem)
  rw [runShared, bind_of_eq_ok htiles, bind_of_eq_ok hplanes, bind_of_eq_ok hpositive,
    bind_of_eq_ok (blocking_ok hR hplan hroom.slots),
    bind_of_eq_ok (engine_ok hR hplan hroom.slots), bind_of_eq_ok hsteps,
    h.eq_convolution hplan hmatch.input_eq hdone]
  rfl

/-- Without room several engines end in the same fault as one. -/
theorem runShared_error (hR : R.Sound plan.filter) (hplan : plan.Valid R)
    (hroom : ¬ plan.HasRoom R) (hmatch : plan.Matches input weights output)
    (hturns : plan.Distributes turns) :
    runShared R plan turns output input weights = .error plan.shortage := by
  obtain ⟨cursor, htiles, hplanes, hpositive, -⟩ := preparations_ok hR hplan hmatch
  rw [runShared, bind_of_eq_ok htiles, bind_of_eq_ok hplanes, bind_of_eq_ok hpositive]
  by_cases hslots : (plan.block + plan.filter.carry) * R.footprint.slot ≤ Memory.limit
  · -- there is a first turn, and it has no room for the taps of its filter
    obtain ⟨hprepared, houtputs, htaps⟩ := taps_of_not_hasRoom hroom hslots
    rw [bind_of_eq_ok (blocking_ok hR hplan hslots), bind_of_eq_ok (engine_ok hR hplan hslots),
      shortage_of_slots hR hplan hslots]
    cases turns with
    | nil =>
      obtain ⟨turn, hmem, -⟩ := hturns.complete 0 houtputs
      cases hmem
    | cons turn rest =>
      have hturn := hturns.filter_lt turn List.mem_cons_self
      rw [List.foldlM_cons, takeTurn, runFilter_exhausted hR hplan hmatch hprepared htaps hturn]
      rfl
  · exact engine_error hplan hslots _

/-- Whether one engine takes all filters or several engines share them, in whatever order: the same
output is left, or there is a fault in both cases. -/
theorem run_iff_runShared (hR : R.Sound plan.filter) (hplan : plan.Valid R)
    (hmatch : plan.Matches input weights output) (hturns : plan.Distributes turns)
    (result : Array R.Output) :
    (∃ log, run R plan output input weights = .ok (result, log)) ↔
      runShared R plan turns output input weights = .ok result := by
  by_cases hroom : plan.HasRoom R
  · obtain ⟨log, hrun⟩ := run_ok hR hplan hroom hmatch
    rw [hrun, runShared_ok hR hplan hroom hmatch hturns]
    simp
  · rw [run_error hR hplan hroom hmatch, runShared_error hR hplan hroom hmatch hturns]
    simp

end DirectConv.Plan
