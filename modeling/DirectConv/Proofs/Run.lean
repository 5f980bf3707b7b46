import DirectConv.Proofs.Convolution
import DirectConv.Proofs.WindowSum

/-!
# Carrying out a plan

A plan that was made is carried out without a fault on buffers of the right lengths, if there is
room for what it keeps besides the buffers, and its output is the convolution of the regime: the
lanes of a register, the rows of a block and what the output held before do not show.

## Main definitions

- `DirectConv.Plan.HasRoom`: there is room for the accumulators and the taps
- `DirectConv.Memory.shortage`, `DirectConv.Plan.shortage`: the fault of items, and of a plan,
  without room
- `DirectConv.Plan.Matches`: buffers of the lengths a plan asks for

## Main statements

- `DirectConv.Regime.prepare_getElem?`, `DirectConv.Regime.prepare_error`: the taps of a filter, and
  the fault of taps without room
- `DirectConv.Plan.run_ok`: the output of a plan
- `DirectConv.Plan.run_error`: a plan without room ends in a fault
-/

namespace DirectConv

/-- The fault of `count` items without room: they are too many to be counted, or memory is too small
for them. -/
def Memory.shortage (count : Nat) : Fault :=
  if count < Size.bound then .memoryExhausted else .sizeOverflow

namespace Regime

variable (R : Regime) (weights : Array R.Weight) (channels : Nat) (filter : FilterSize)

/-- One tap for each position of the filter in each group, if the taps can be counted, and if there
are the weights and the room that the regime asks for. -/
theorem prepare_getElem? (hcount : R.groups channels * filter.taps < Size.bound)
    (hweights : R.preparation ≠ .filled → channels * filter.taps ≤ weights.size)
    (hroom : R.preparation ≠ .copied →
      R.groups channels * filter.taps * R.footprint.tap ≤ Memory.limit) :
    ∃ taps, R.prepare weights channels filter = .ok taps ∧
      taps.size = R.groups channels * filter.taps ∧
      ∀ group < R.groups channels, ∀ position < filter.taps,
        taps[group * filter.taps + position]? =
          some (R.tapAt weights channels filter group position) := by
  refine ⟨Array.ofFn fun i : Fin (R.groups channels * filter.taps) =>
    R.tapAt weights channels filter (i / filter.taps) (i % filter.taps), ?_, Array.size_ofFn,
    fun group hgroup position hposition => ?_⟩
  · have hcomplete (h : R.preparation ≠ .filled) :
        require (channels * filter.taps ≤ weights.size) .outOfRange = .ok () :=
      require_eq_ok_iff.2 (decide_eq_true (hweights h))
    have hreserve (h : R.preparation ≠ .copied) :
        Memory.reserve (R.groups channels * filter.taps) R.footprint.tap = .ok () :=
      Memory.reserve_eq_ok_iff.2 (hroom h)
    rw [prepare, bind_of_eq_ok (Size.check_of_lt hcount)]
    cases hprepared : R.preparation with
    | copied => exact bind_of_eq_ok (hcomplete (by simp [hprepared])) _
    | converted =>
      refine (bind_of_eq_ok (hcomplete (by simp [hprepared])) _).trans ?_
      exact bind_of_eq_ok (hreserve (by simp [hprepared])) _
    | gathered =>
      refine (bind_of_eq_ok (hreserve (by simp [hprepared])) _).trans ?_
      exact bind_of_eq_ok (hcomplete (by simp [hprepared])) _
    | filled => exact bind_of_eq_ok (hreserve (by simp [hprepared])) _
  · rw [Array.getElem?_ofFn, dif_pos (mul_add_lt_mul hgroup hposition)]
    simp only [Window.mul_add_div_of_lt hposition, Window.mul_add_mod_of_lt hposition]

variable {R weights channels filter} in
/-- However taps come out of weights, they are the taps of the regime. -/
theorem eq_of_prepare {taps : Array R.Tap} (h : R.prepare weights channels filter = .ok taps) :
    (Array.ofFn fun i : Fin (R.groups channels * filter.taps) =>
      R.tapAt weights channels filter (i / filter.taps) (i % filter.taps)) = taps := by
  obtain ⟨_, -, h⟩ := bind_eq_ok_iff.1 h
  cases hprepares : R.preparation with
  | copied | filled =>
    simp only [hprepares] at h
    obtain ⟨_, -, htaps⟩ := bind_eq_ok_iff.1 h
    exact Except.ok.inj htaps
  | converted | gathered =>
    simp only [hprepares] at h
    obtain ⟨_, -, h⟩ := bind_eq_ok_iff.1 h
    obtain ⟨_, -, htaps⟩ := bind_eq_ok_iff.1 h
    exact Except.ok.inj htaps

/-- Without room for taps that take room none are prepared. -/
theorem prepare_error (hprepared : R.preparation ≠ .copied)
    (hweights : R.preparation = .converted → channels * filter.taps ≤ weights.size)
    (hroom : ¬ R.groups channels * filter.taps * R.footprint.tap ≤ Memory.limit) :
    R.prepare weights channels filter =
      .error (Memory.shortage (R.groups channels * filter.taps)) := by
  by_cases hcount : R.groups channels * filter.taps < Size.bound
  · have hreserve := Memory.reserve_eq_error hroom
    rw [prepare, bind_of_eq_ok (Size.check_of_lt hcount), Memory.shortage, if_pos hcount]
    cases hprepares : R.preparation with
    | copied => exact absurd hprepares hprepared
    | converted =>
      have hcomplete : require (channels * filter.taps ≤ weights.size) .outOfRange = .ok () :=
        require_eq_ok_iff.2 (decide_eq_true (hweights hprepares))
      exact (bind_of_eq_ok hcomplete _).trans (bind_of_eq_error hreserve _)
    | gathered => exact bind_of_eq_error hreserve _
    | filled => exact bind_of_eq_error hreserve _
  · rw [prepare, bind_of_eq_error (Size.check_of_not_lt hcount), Memory.shortage, if_neg hcount]

end Regime

namespace Plan

variable {R : Regime} {plan : Plan}

/-- There is room for the accumulators of an engine and, unless weights are used as they are, for
the taps of a filter. -/
structure HasRoom (plan : Plan) (R : Regime) : Prop where
  slots : (plan.block + plan.filter.carry) * R.footprint.slot ≤ Memory.limit
  taps : R.preparation ≠ .copied → 0 < plan.shape.outputs →
    plan.groups * plan.filter.taps * R.footprint.tap ≤ Memory.limit

/-- The fault of a plan without room: its accumulators are too many to be counted, or memory is too
small for them or for the taps. -/
def shortage (plan : Plan) : Fault := Memory.shortage (plan.block + plan.filter.side)

/-- Buffers of the lengths a plan asks for, none of which is longer than memory allows. -/
structure Matches (plan : Plan) {α β γ : Type} (input : Array α) (weights : Array β)
    (output : Array γ) : Prop where
  input_eq : input.size = plan.shape.inputSize
  weights_eq : weights.size = plan.shape.filterSize
  output_eq : output.size = plan.shape.outputSize
  input_le : input.size ≤ Memory.limit
  weights_le : weights.size ≤ Memory.limit
  output_le : output.size ≤ Memory.limit

/-- The dimensions of the engine of a plan. -/
def blocking (plan : Plan) (hplan : plan.Valid R) : Blocking where
  filter := plan.filter
  block := plan.block
  groups := plan.groups
  maxLanes := plan.maxLanes
  block_pos := hplan.block_pos
  side_le := hplan.side_le_maxLanes

/-- Accumulators there is room for can be counted. -/
theorem countable_slots (hR : R.Sound plan.filter) (hplan : plan.Valid R)
    (hroom : (plan.block + plan.filter.carry) * R.footprint.slot ≤ Memory.limit) :
    plan.block + plan.filter.side < Size.bound := by
  have hslots : (plan.block + plan.filter.carry) * 2 ≤ Memory.limit :=
    Nat.le_trans (Nat.mul_le_mul_left _ hR.slot_pos) hroom
  have hlimit : Memory.limit < Size.bound := by decide
  have hside := plan.filter.carry_add_one
  have hblock := hplan.block_pos
  omega

theorem blocking_of_countable (hplan : plan.Valid R)
    (hcount : plan.block + plan.filter.side < Size.bound) :
    Blocking.of plan.filter plan.block plan.groups plan.maxLanes = .ok (plan.blocking hplan) := by
  rw [Blocking.of, dif_pos ⟨hplan.block_pos, hplan.side_le_maxLanes⟩, Size.check_of_lt hcount]
  rfl

theorem blocking_ok (hR : R.Sound plan.filter) (hplan : plan.Valid R)
    (hroom : (plan.block + plan.filter.carry) * R.footprint.slot ≤ Memory.limit) :
    Blocking.of plan.filter plan.block plan.groups plan.maxLanes = .ok (plan.blocking hplan) :=
  blocking_of_countable hplan (countable_slots hR hplan hroom)

theorem engine_ok (hR : R.Sound plan.filter) (hplan : plan.Valid R)
    (hroom : (plan.block + plan.filter.carry) * R.footprint.slot ≤ Memory.limit) :
    Engine.make R (plan.blocking hplan) = .ok (Engine.fresh R (plan.blocking hplan)) := by
  have hslots : Memory.reserve (plan.blocking hplan).slots R.footprint.slot = .ok () :=
    Memory.reserve_eq_ok_iff.2 hroom
  have hlanes : R.reserveLanes (plan.blocking hplan).maxLanes = .ok () := by
    refine hR.reserveLanes_ok ?_
    calc plan.maxLanes * R.footprint.lane
        ≤ plan.maxLanes * R.elementBits := Nat.mul_le_mul_left _ hR.lane_le
      _ ≤ 8 * VectorUnit.longestBits := hplan.lanes_le
      _ ≤ Memory.limit := by decide
  rw [Engine.make, bind_of_eq_ok hslots, bind_of_eq_ok hlanes]
  rfl

/-- A bank has as many weights as there are taps, or more, so the taps of a filter can be
counted. -/
theorem countable_taps (hR : R.Sound plan.filter) {channels size : Nat}
    (hbank : channels * plan.filter.taps ≤ size) (hlimit : size ≤ Memory.limit) :
    R.groups channels * plan.filter.taps < Size.bound :=
  calc R.groups channels * plan.filter.taps
      ≤ channels * plan.filter.taps := Nat.mul_le_mul_right _ (hR.groups_le channels)
    _ ≤ Memory.limit := Nat.le_trans hbank hlimit
    _ < Size.bound := by decide

/-- The taps of a filter are the ones the regime gives for its weights. -/
theorem prepare_ok {b : Blocking} {channels : Nat} {bank : Array R.Weight}
    (hgroups : b.groups = R.groups channels) (hbank : channels * b.filter.taps ≤ bank.size)
    (hcount : R.groups channels * b.filter.taps < Size.bound)
    (hroom : R.preparation ≠ .copied →
      b.groups * b.filter.taps * R.footprint.tap ≤ Memory.limit) :
    ∃ taps, R.prepare bank channels b.filter = .ok taps ∧
      b.HasTaps taps fun kernelRow group column =>
        R.tapAt bank channels b.filter group (kernelRow * b.filter.side + column) := by
  obtain ⟨taps, hprepare, hsize, htap⟩ := R.prepare_getElem? bank channels b.filter hcount
    (fun _ => hbank) (fun hprepared => hgroups ▸ hroom hprepared)
  refine ⟨taps, hprepare, hgroups ▸ hsize, fun kernelRow hrow group hgroup column hcolumn => ?_⟩
  rw [Nat.add_mul, Nat.mul_assoc, Nat.add_assoc]
  exact htap group (hgroups ▸ hgroup) _ (mul_add_lt_mul hrow hcolumn)

/-- The input of a plan, seen as planes. -/
def planes (plan : Plan) {α : Type} (input : Array α) (h : input.size = plan.shape.inputSize) :
    Planes α :=
  ⟨input, plan.shape.channels, plan.shape.height, plan.shape.width, h⟩

theorem suits (hR : R.Sound plan.filter) (hplan : plan.Valid R) {input : Array R.Input}
    (hinput : input.size = plan.shape.inputSize) (hlimit : input.size ≤ Memory.limit) :
    (plan.blocking hplan).Suits (plan.planes input hinput) := by
  have hbound : Memory.limit + (8 * VectorUnit.longestBits + 1) < Size.bound := by decide
  have hheight := hplan.height_le_inputSize
  have hwidth := hplan.width_le_inputSize
  refine ⟨⟨hplan.side_le_height, hplan.side_le_width, ?_, ?_, ?_⟩, hplan.groups_eq, ?_⟩
  · change plan.shape.height + 1 < Size.bound
    omega
  · change plan.shape.width + 1 < Size.bound
    omega
  · change 0 < plan.groups
    rw [hplan.groups_eq]
    exact hR.groups_pos hplan.channels_pos
  -- a group counts past the last channel by less than the bits of a register group
  · intro group (hgroup : group < plan.groups)
    have hlast := hR.lastChannel_le (hplan.groups_eq ▸ hgroup)
    have hchannels := hplan.channels_le_inputSize
    have helement := hplan.elementBits_le
    omega

/-- The tiles of a plan lie inside the input and leave no column out. -/
theorem tiles_ok (hplan : plan.Valid R) (hwidth : plan.shape.width + 1 < Size.bound) :
    ∃ cursor, plan.tiles = .ok cursor ∧
      (∀ tile ∈ cursor.toList, tile.Inside (plan.blocking hplan) plan.shape.width ∧
        tile.inWidth = tile.outWidth + plan.filter.carry) ∧
      ∀ col < plan.shape.outWidth, ∃ tile ∈ cursor.toList, tile.Covers col := by
  have hside := plan.filter.carry_add_one
  have hlanes := hplan.maxLanes_le_width
  have hside_le := hplan.side_le_maxLanes
  obtain ⟨cursor, hstart, htotal, hstep, hcarry, hcol⟩ := TileCursor.start_ok plan.filter.side_pos
    hplan.side_le_width hplan.side_le_maxLanes hwidth (by omega)
  refine ⟨cursor, hstart, fun tile htile => ?_, fun col hcol' => ?_⟩
  · obtain ⟨hin, hout, hend⟩ := TileCursor.inside_of_mem htile
    have hwide : tile.inWidth = tile.outWidth + plan.filter.carry := by
      rw [hin, hcarry]
      rfl
    refine ⟨⟨by omega, ?_, by omega, ?_⟩, hwide⟩
    · change tile.inWidth ≤ plan.maxLanes
      omega
    · exact htotal ▸ hend
  · refine TileCursor.exists_covers (by omega) ?_
    rw [htotal, ← hplan.side_eq]
    exact hcol'

/-- The output planes of the first `count` filters, and nothing behind them. -/
structure Filled (plan : Plan) (planes : Planes R.Input) (weights : Array R.Weight) (count : Nat)
    (buffer : Array R.Output) : Prop where
  size_eq : buffer.size = count * plan.shape.planeSize
  get : ∀ index < count, ∀ row < plan.shape.outHeight, ∀ col < plan.shape.outWidth,
    buffer[(index * plan.shape.outHeight + row) * plan.shape.outWidth + col]? =
      some (R.element plan.filter planes
        (R.bankTap plan.filter plan.shape.channels weights index) row col)

/-- An element of an output plane stands in the part of the output that is the plane. -/
theorem place_eq (shape : Shape) (index row col : Nat) :
    (index * shape.outHeight + row) * shape.outWidth + col =
      index * shape.planeSize + (row * shape.outWidth + col) := by
  rw [Shape.planeSize, Nat.add_mul, Nat.mul_assoc, Nat.add_assoc]

/-- A further plane behind the planes that are filled. -/
theorem Filled.append {planes : Planes R.Input} {weights : Array R.Weight} {count : Nat}
    {buffer plane : Array R.Output} (h : plan.Filled planes weights count buffer)
    (hsize : plane.size = plan.shape.planeSize)
    (hplane : ∀ row < plan.shape.outHeight, ∀ col < plan.shape.outWidth,
      plane[row * plan.shape.outWidth + col]? = some (R.element plan.filter planes
        (R.bankTap plan.filter plan.shape.channels weights count) row col)) :
    plan.Filled planes weights (count + 1) (buffer ++ plane) := by
  refine ⟨by rw [Array.size_append, h.size_eq, hsize, Nat.succ_mul],
    fun index hindex row hrow col hcol => ?_⟩
  have hposition : row * plan.shape.outWidth + col < plan.shape.planeSize :=
    mul_add_lt_mul hrow hcol
  have hplace := place_eq plan.shape index row col
  rcases Nat.lt_succ_iff_lt_or_eq.1 hindex with hlt | rfl
  · rw [Array.getElem?_append_left, h.get index hlt row hrow col hcol]
    rw [h.size_eq, hplace]
    exact mul_add_lt_mul hlt hposition
  · rw [Array.getElem?_append_right (by rw [h.size_eq, hplace]; omega), h.size_eq, hplace,
      Nat.add_sub_cancel_left, hplane row hrow col hcol]

/-- When all planes are filled, the buffer is the convolution. -/
theorem Filled.eq_convolution (hplan : plan.Valid R) {input : Array R.Input}
    (hinput : input.size = plan.shape.inputSize) {weights : Array R.Weight}
    {buffer : Array R.Output}
    (h : plan.Filled (plan.planes input hinput) weights plan.shape.outputs buffer) :
    buffer = R.convolution plan.filter (plan.planes input hinput) weights plan.shape.outputs := by
  apply Array.ext_getElem?
  intro p
  simp only [Regime.convolution, planes, hplan.outHeight_eq, hplan.outWidth_eq,
    Array.getElem?_ofFn]
  split
  · rename_i hp
    have hinside := Window.position_inside hp
    have hget := h.get _ hinside.filter_lt _ hinside.row_lt _ hinside.column_lt
    rwa [Window.position_index] at hget
  · rename_i hp
    refine Array.getElem?_eq_none ?_
    rw [h.size_eq, Shape.planeSize, ← Nat.mul_assoc]
    omega

section Filters

variable {input : Array R.Input} {weights : Array R.Weight} {output : Array R.Output}

theorem Matches.weights_size (h : plan.Matches input weights output) (hplan : plan.Valid R) :
    weights.size = plan.shape.outputs * (plan.shape.channels * plan.filter.taps) := by
  rw [h.weights_eq, Shape.filterSize, hplan.side_eq, FilterSize.taps, Nat.mul_assoc, Nat.mul_assoc]

theorem Matches.output_size (h : plan.Matches input weights output) :
    output.size = plan.shape.outputs * plan.shape.planeSize := by
  rw [h.output_eq, Shape.outputSize, Shape.planeSize, Nat.mul_assoc]

theorem bank_ok (hmatch : plan.Matches input weights output) (hplan : plan.Valid R) {index : Nat}
    (hindex : index < plan.shape.outputs) :
    Buffer.slice weights (index * (plan.shape.channels * plan.filter.taps))
        (plan.shape.channels * plan.filter.taps) =
          .ok (R.bank plan.filter plan.shape.channels weights index) ∧
      plan.shape.channels * plan.filter.taps ≤
        (R.bank plan.filter plan.shape.channels weights index).size := by
  have hend : index * (plan.shape.channels * plan.filter.taps) +
      plan.shape.channels * plan.filter.taps ≤ weights.size := by
    rw [hmatch.weights_size hplan, ← Nat.succ_mul]
    exact Nat.mul_le_mul_right _ hindex
  refine ⟨Buffer.slice_eq_ok_iff.2 ⟨hend, rfl⟩, ?_⟩
  rw [Regime.bank, Array.size_extract]
  omega

/-- The taps of a filter can be counted. -/
theorem Matches.countable (hmatch : plan.Matches input weights output) (hR : R.Sound plan.filter)
    (hplan : plan.Valid R) {index : Nat} (hindex : index < plan.shape.outputs) :
    R.groups plan.shape.channels * plan.filter.taps < Size.bound := by
  refine countable_taps hR ?_ hmatch.weights_le
  rw [hmatch.weights_size hplan]
  exact Nat.le_mul_of_pos_left _ (Nat.zero_lt_of_lt hindex)

/-- One filter: its output plane is computed in place of what the output held there. -/
theorem runFilter_plane (hR : R.Sound plan.filter) (hplan : plan.Valid R) (hroom : plan.HasRoom R)
    (hmatch : plan.Matches input weights output) {tiles : List Tile}
    (htiles : ∀ tile ∈ tiles, tile.Inside (plan.blocking hplan) plan.shape.width ∧
      tile.inWidth = tile.outWidth + plan.filter.carry)
    (hcovers : ∀ col < plan.shape.outWidth, ∃ tile ∈ tiles, tile.Covers col) {index : Nat}
    (hindex : index < plan.shape.outputs) (progress : Progress R (plan.blocking hplan)) :
    ∃ engine log plane, runFilter plan (plan.planes input hmatch.input_eq) tiles output weights
        progress index = .ok ⟨engine, progress.buffer ++ plane, log⟩ ∧
      plane.size = plan.shape.planeSize ∧
      ∀ row < plan.shape.outHeight, ∀ col < plan.shape.outWidth,
        plane[row * plan.shape.outWidth + col]? =
          some (R.element plan.filter (plan.planes input hmatch.input_eq)
            (R.bankTap plan.filter plan.shape.channels weights index) row col) := by
  obtain ⟨hbank, hbank_size⟩ := bank_ok (R := R) hmatch hplan hindex
  obtain ⟨taps, (hprepare : R.prepare _ _ plan.filter = .ok taps), htaps⟩ :=
    prepare_ok (b := plan.blocking hplan) hplan.groups_eq hbank_size
      (hmatch.countable hR hplan hindex)
      fun hprepared => hroom.taps hprepared (Nat.zero_lt_of_lt hindex)
  -- the plane starts from what the output held, and the tiles leave nothing of it
  have hend : index * plan.shape.planeSize + plan.shape.planeSize ≤ output.size := by
    rw [hmatch.output_size, ← Nat.succ_mul]
    exact Nat.mul_le_mul_right _ hindex
  have hplane : Buffer.slice output (index * plan.shape.planeSize) plan.shape.planeSize = .ok _ :=
    Buffer.slice_eq_ok_iff.2 ⟨hend, rfl⟩
  have hrows := hplan.outHeight_eq
  have hcolumns := hplan.outWidth_eq
  have hsize : (output.extract (index * plan.shape.planeSize)
      (index * plan.shape.planeSize + plan.shape.planeSize)).size = plan.shape.planeSize := by
    rw [Array.size_extract]
    omega
  obtain ⟨done, hdone, htiled⟩ := runTiles_ok hR (suits hR hplan hmatch.input_eq hmatch.input_le)
    htaps htiles { progress with buffer := output.extract _ _ }
    (hsize.trans (congrArg₂ (· * ·) hrows.symm hcolumns.symm))
  refine ⟨done.engine, done.log, done.buffer, ?_, htiled.size_eq.trans hsize,
    fun row hrow col hcol => ?_⟩
  · rw [runFilter, bind_of_eq_ok hbank, bind_of_eq_ok hprepare, bind_of_eq_ok hplane,
      bind_of_eq_ok hdone]
    rfl
  · have hget := htiled.get row (hrows ▸ hrow) col (hcolumns ▸ hcol)
    rw [if_pos (hcovers col hcol)] at hget
    rwa [← hcolumns]

/-- Without room for the taps of a filter no filter can be computed. -/
theorem runFilter_exhausted (hR : R.Sound plan.filter) (hplan : plan.Valid R)
    (hmatch : plan.Matches input weights output) (hprepared : R.preparation ≠ .copied)
    (htaps : ¬ plan.groups * plan.filter.taps * R.footprint.tap ≤ Memory.limit)
    {planes : Planes R.Input} {tiles : List Tile} {index : Nat}
    (hindex : index < plan.shape.outputs) {b : Blocking} (progress : Progress R b) :
    runFilter plan planes tiles output weights progress index = .error .memoryExhausted := by
  obtain ⟨hbank, hbank_size⟩ := bank_ok (R := R) hmatch hplan hindex
  have hprepare := R.prepare_error (R.bank plan.filter plan.shape.channels weights index)
    plan.shape.channels plan.filter hprepared (fun _ => hbank_size) (hplan.groups_eq ▸ htaps)
  rw [Memory.shortage, if_pos (hmatch.countable hR hplan hindex)] at hprepare
  rw [runFilter, bind_of_eq_ok hbank]
  exact bind_of_eq_error hprepare _

/-- Everything a plan does before there is an engine succeeds. -/
theorem preparations_ok (hR : R.Sound plan.filter) (hplan : plan.Valid R)
    (hmatch : plan.Matches input weights output) :
    ∃ cursor, plan.tiles = .ok cursor ∧
      Planes.ofArray input plan.shape.channels plan.shape.height plan.shape.width =
        .ok (plan.planes input hmatch.input_eq) ∧
      require (0 < plan.shape.planeSize) .brokenPrecondition = .ok () ∧
      (∀ tile ∈ cursor.toList, tile.Inside (plan.blocking hplan) plan.shape.width ∧
        tile.inWidth = tile.outWidth + plan.filter.carry) ∧
      ∀ col < plan.shape.outWidth, ∃ tile ∈ cursor.toList, tile.Covers col := by
  obtain ⟨cursor, htiles, hinside, hcovers⟩ := tiles_ok hplan
    (suits hR hplan hmatch.input_eq hmatch.input_le).width_lt
  have hsize : Size.product [plan.shape.channels, plan.shape.height, plan.shape.width] = .ok _ :=
    hplan.toValid.product_input
      (Nat.lt_of_le_of_lt (hmatch.input_eq ▸ hmatch.input_le) (by decide))
  refine ⟨cursor, htiles, Planes.ofArray_eq_ok hsize hmatch.input_eq, ?_, hinside, hcovers⟩
  exact require_eq_ok_iff.2
    (decide_eq_true (Nat.mul_pos hplan.outHeight_pos hplan.outWidth_pos))

/-- A plan with room is carried out, and its output is the convolution of the regime. -/
theorem run_ok (hR : R.Sound plan.filter) (hplan : plan.Valid R) (hroom : plan.HasRoom R)
    (hmatch : plan.Matches input weights output) :
    ∃ log, run R plan output input weights = .ok (R.convolution plan.filter
      (plan.planes input hmatch.input_eq) weights plan.shape.outputs, log) := by
  obtain ⟨cursor, htiles, hplanes, hpositive, hinside, hcovers⟩ :=
    preparations_ok hR hplan hmatch
  obtain ⟨done, hdone, hfilled⟩ := foldlM_range_ok
    (fun index (progress : Progress R (plan.blocking hplan)) =>
      plan.Filled (plan.planes input hmatch.input_eq) weights index progress.buffer)
    (s := ⟨Engine.fresh R (plan.blocking hplan), #[], #[.convolution R.name plan.shape plan.filter
      plan.maxLanes plan.block cursor.remaining]⟩)
    ⟨(Nat.zero_mul _).symm, fun index hindex => absurd hindex (Nat.not_lt_zero _)⟩
    fun index progress (hindex : index < plan.shape.outputs) h => by
      obtain ⟨engine, log, plane, hrun, hsize, hget⟩ :=
        runFilter_plane hR hplan hroom hmatch hinside hcovers hindex progress
      exact ⟨_, hrun, h.append hsize hget⟩
  refine ⟨done.log, ?_⟩
  rw [run, bind_of_eq_ok htiles, bind_of_eq_ok hplanes, bind_of_eq_ok hpositive,
    bind_of_eq_ok (blocking_ok hR hplan hroom.slots),
    bind_of_eq_ok (engine_ok hR hplan hroom.slots), bind_of_eq_ok hdone,
    hfilled.eq_convolution hplan]
  rfl

/-- If there is room for the accumulators, only memory can be short. -/
theorem shortage_of_slots (hR : R.Sound plan.filter) (hplan : plan.Valid R)
    (hslots : (plan.block + plan.filter.carry) * R.footprint.slot ≤ Memory.limit) :
    plan.shortage = .memoryExhausted :=
  if_pos (countable_slots hR hplan hslots)

/-- Without room for its accumulators an engine is not made. -/
theorem engine_error {α : Type} (hplan : plan.Valid R)
    (hslots : ¬ (plan.block + plan.filter.carry) * R.footprint.slot ≤ Memory.limit)
    (f : (b : Blocking) → Engine R b → Except Fault α) :
    (Blocking.of plan.filter plan.block plan.groups plan.maxLanes >>= fun b =>
      Engine.make R b >>= f b) = .error plan.shortage := by
  by_cases hsize : plan.block + plan.filter.side < Size.bound
  · have hengine : Engine.make R (plan.blocking hplan) = .error .memoryExhausted :=
      bind_of_eq_error (Memory.reserve_eq_error hslots) _
    rw [bind_of_eq_ok (blocking_of_countable hplan hsize), bind_of_eq_error hengine, shortage,
      Memory.shortage, if_pos hsize]
  · -- an engine with more accumulators than a machine word can count has no dimensions
    have hblocking : Blocking.of plan.filter plan.block plan.groups plan.maxLanes =
        .error .sizeOverflow := by
      rw [Blocking.of, dif_pos ⟨hplan.block_pos, hplan.side_le_maxLanes⟩,
        Size.check_of_not_lt hsize]
      rfl
    rw [bind_of_eq_error hblocking, shortage, Memory.shortage, if_neg hsize]

/-- What is missing if there is room for the accumulators. -/
theorem taps_of_not_hasRoom (hroom : ¬ plan.HasRoom R)
    (hslots : (plan.block + plan.filter.carry) * R.footprint.slot ≤ Memory.limit) :
    R.preparation ≠ .copied ∧ 0 < plan.shape.outputs ∧
      ¬ plan.groups * plan.filter.taps * R.footprint.tap ≤ Memory.limit := by
  by_contra h
  apply hroom
  refine ⟨hslots, fun hprepared houtputs => ?_⟩
  by_contra htaps
  exact h ⟨hprepared, houtputs, htaps⟩

/-- A plan without room ends in the fault that says what is short. -/
theorem run_error (hR : R.Sound plan.filter) (hplan : plan.Valid R) (hroom : ¬ plan.HasRoom R)
    (hmatch : plan.Matches input weights output) :
    run R plan output input weights = .error plan.shortage := by
  obtain ⟨cursor, htiles, hplanes, hpositive, -⟩ := preparations_ok hR hplan hmatch
  rw [run, bind_of_eq_ok htiles, bind_of_eq_ok hplanes, bind_of_eq_ok hpositive]
  by_cases hslots : (plan.block + plan.filter.carry) * R.footprint.slot ≤ Memory.limit
  · -- there is an engine, and the first filter has no room for its taps
    obtain ⟨hprepared, houtputs, htaps⟩ := taps_of_not_hasRoom hroom hslots
    obtain ⟨count, hcount⟩ := Nat.exists_eq_succ_of_ne_zero (Nat.pos_iff_ne_zero.1 houtputs)
    rw [bind_of_eq_ok (blocking_ok hR hplan hslots), bind_of_eq_ok (engine_ok hR hplan hslots),
      hcount, List.range_eq_range', List.range'_succ, List.foldlM_cons,
      runFilter_exhausted hR hplan hmatch hprepared htaps houtputs,
      shortage_of_slots hR hplan hslots]
    rfl
  · exact engine_error hplan hslots _

end Filters

end Plan

end DirectConv
