import DirectConv.Proofs.Execute
import DirectConv.Proofs.Groups
import DirectConv.Proofs.Schedule

/-!
# Sizes

The dimensions of a shape and the rows of a block are any machine sizes, and a request computes
with them before it knows that there are buffers to match. Lengths that are machine sizes are the
exact ones, but nothing keeps the others from being asked for: they overflow, and where overflow is
not checked for, what is compared with the buffers is what is left of them. Where the buffers match
the exact lengths, they bound every other size there is, with one exception: the number of
accumulators depends on the rows of a block, which no buffer bounds.

## Main definitions

- `DirectConv.Shape.bufferChecks`: the conditions on the buffers
- `DirectConv.Plan.Fits`: the sizes that carrying out a plan takes are machine sizes
- `DirectConv.Plan.Settles`: what the sizes of a plan and of the buffers lead to

## Main statements

- `DirectConv.Plan.Matches.fits`: buffers of the right lengths bound all sizes
- `DirectConv.Request.sizes_settle`: what the sizes of a request lead to
- `DirectConv.Request.sizes_overflow`: requests that overflow, with buffers that agree with what is
  left of the lengths
-/

namespace DirectConv

namespace Shape

variable {shape : Shape} {filter : FilterSize}

/-- What buffers of the given lengths have to satisfy. -/
def bufferChecks (shape : Shape) (input filter output : Nat) : List Check := [
  ⟨shape.inputSize = input, .wrongLength .input shape.inputSize input⟩,
  ⟨shape.filterSize = filter, .wrongLength .filter shape.filterSize filter⟩,
  ⟨shape.outputSize = output, .wrongLength .output shape.outputSize output⟩]

/-- Buffers are compared with the exact lengths. -/
theorem checkBuffers_eq_verdict (hshape : shape.Valid filter) (h : shape.Fits)
    (input weights output : Nat) : shape.checkBuffers input weights output =
      .ok (verdict (shape.bufferChecks input weights output)) := by
  rw [checkBuffers, bind_of_eq_ok (lengths_of_fits hshape h)]
  simp only [bufferChecks, verdict_cons, verdict_nil, ne_eq, ite_not]
  rfl

theorem bufferChecks_eq_ok_iff {input weights output : Nat} :
    verdict (shape.bufferChecks input weights output) = .ok () ↔
      shape.inputSize = input ∧ shape.filterSize = weights ∧ shape.outputSize = output := by
  rw [verdict_eq_ok_iff, bufferChecks]
  simp

/-- The weights that a filter has for all channels fit where the input fits. -/
theorem Valid.channels_mul_taps_le (hshape : shape.Valid filter) :
    shape.channels * filter.taps ≤ shape.inputSize := by
  rw [inputSize, Nat.mul_assoc]
  exact Nat.mul_le_mul_left _ (Nat.mul_le_mul hshape.side_le_height hshape.side_le_width)

/-- An output plane fits where the input fits. -/
theorem Valid.planeSize_le (hshape : shape.Valid filter) : shape.planeSize ≤ shape.inputSize := by
  have hside := filter.side_pos
  have hrows : shape.outHeight ≤ shape.height := by
    rw [← hshape.outHeight_eq]
    omega
  have hcolumns : shape.outWidth ≤ shape.width := by
    rw [← hshape.outWidth_eq]
    omega
  rw [inputSize, Nat.mul_assoc]
  exact Nat.le_trans (Nat.mul_le_mul hrows hcolumns) (Nat.le_mul_of_pos_left _ hshape.channels_pos)

end Shape

namespace Plan

variable {R : Regime} {plan : Plan}

/-- The sizes that carrying out a plan takes are machine sizes, apart from the number of
accumulators. A group has `members` channels, the last one perhaps fewer. -/
structure Fits (plan : Plan) (members : Nat) : Prop where
  /-- The lanes of a register, before the columns of a window are taken off. -/
  lanes : plan.maxLanes + 1 < Size.bound
  plane : plan.shape.planeSize < Size.bound
  /-- The output planes of a filter and of those before it. -/
  planes : ∀ index < plan.shape.outputs, (index + 1) * plan.shape.planeSize < Size.bound
  bank : plan.shape.channels * plan.filter.taps < Size.bound
  /-- The weights of a filter and of those before it. -/
  banks : ∀ index < plan.shape.outputs,
    (index + 1) * (plan.shape.channels * plan.filter.taps) < Size.bound
  /-- The weights of a channel and of those before it. -/
  channels : ∀ channel < plan.shape.channels, (channel + 1) * plan.filter.taps < Size.bound
  /-- The taps of a group and of those before it. -/
  taps : ∀ group < plan.groups, (group + 1) * plan.filter.taps < Size.bound
  /-- The channels of a group and of those before it. -/
  members : ∀ group < plan.groups, (group + 1) * members < Size.bound
  /-- A row of the input and those before it. -/
  rows : ∀ channel < plan.shape.channels, ∀ row < plan.shape.height,
    (channel * plan.shape.height + row) * plan.shape.width + plan.shape.width < Size.bound
  /-- The columns of a tile and those before it. -/
  tiles : ∀ cursor, plan.tiles = .ok cursor → ∀ tile ∈ cursor.toList,
    tile.col + tile.inWidth < Size.bound
  /-- The rows that a block reads and those before it. -/
  blocks : ∀ h : 0 < plan.block,
    ∀ block ∈ (Schedule.ofRows plan.block plan.shape.outHeight h).blocks,
      block.base + plan.filter.carry + block.rows < Size.bound
  /-- The elements of an output row that a tile stores and those before it in the plane. -/
  stores : ∀ cursor, plan.tiles = .ok cursor → ∀ tile ∈ cursor.toList,
    ∀ row < plan.shape.outHeight,
      row * plan.shape.outWidth + tile.col + tile.outWidth < Size.bound

/-- No group is without a channel. -/
theorem ceilDiv_le_self {members : Nat} (hpos : 0 < members) (channels : Nat) :
    channels ⌈/⌉ members ≤ channels := by
  rw [ceilDiv_le_iff_le_mul hpos]
  exact Nat.le_mul_of_pos_left _ hpos

/-- Less than one group is added to fill the last one. -/
theorem ceilDiv_mul_lt {members : Nat} (hpos : 0 < members) (channels : Nat) :
    channels ⌈/⌉ members * members < channels + members := by
  have hle := Nat.div_mul_le_self (channels + members - 1) members
  rw [Nat.ceilDiv_eq_add_pred_div]
  omega

section Buffers

variable {input : Array R.Input} {weights : Array R.Weight} {output : Array R.Output}

/-- Buffers of the right lengths bound all sizes. -/
theorem Matches.fits (hmatch : plan.Matches input weights output) (hplan : plan.Valid R)
    {members : Nat} (hpos : 0 < members) (hmembers : members ≤ 64)
    (hgroups : plan.groups = plan.shape.channels ⌈/⌉ members) : plan.Fits members := by
  have hlimit : Memory.limit + 64 < Size.bound := by decide
  have hinput : plan.shape.inputSize ≤ Memory.limit := hmatch.input_eq ▸ hmatch.input_le
  have hweights : plan.shape.outputs * (plan.shape.channels * plan.filter.taps) ≤ Memory.limit :=
    hmatch.weights_size hplan ▸ hmatch.weights_le
  have houtput : plan.shape.outputs * plan.shape.planeSize ≤ Memory.limit :=
    hmatch.output_size ▸ hmatch.output_le
  have hcarry := plan.filter.carry_add_one
  have hrows := hplan.outHeight_eq
  have hheight := hplan.side_le_height
  have hheight_le := hplan.height_le_inputSize
  have hwidth_le := hplan.width_le_inputSize
  have hplane := hplan.planeSize_le
  have hbank := hplan.channels_mul_taps_le
  have hchannels : plan.shape.channels ≤ plan.shape.channels * plan.filter.taps :=
    Nat.le_mul_of_pos_right _ (Nat.mul_pos plan.filter.side_pos plan.filter.side_pos)
  have hgroups_le : plan.groups ≤ plan.shape.channels := hgroups ▸ ceilDiv_le_self hpos _
  obtain ⟨cursor, htiles, hinside, -⟩ := tiles_ok hplan (by omega)
  constructor
  case lanes =>
    have hlanes := hplan.maxLanes_le_width
    omega
  case plane => omega
  case planes =>
    intro index (hindex : index + 1 ≤ plan.shape.outputs)
    have hend := Nat.mul_le_mul_right plan.shape.planeSize hindex
    omega
  case bank => omega
  case banks =>
    intro index (hindex : index + 1 ≤ plan.shape.outputs)
    have hend := Nat.mul_le_mul_right (plan.shape.channels * plan.filter.taps) hindex
    omega
  case channels =>
    intro channel (hchannel : channel + 1 ≤ plan.shape.channels)
    have hend := Nat.mul_le_mul_right plan.filter.taps hchannel
    omega
  case taps =>
    intro group (hgroup : group + 1 ≤ plan.groups)
    have hend := Nat.mul_le_mul_right plan.filter.taps (Nat.le_trans hgroup hgroups_le)
    omega
  case members =>
    -- the last group can have places for channels that do not exist
    intro group (hgroup : group + 1 ≤ plan.groups)
    have hend := Nat.mul_le_mul_right members hgroup
    have hlast := ceilDiv_mul_lt hpos plan.shape.channels
    rw [← hgroups] at hlast
    omega
  case rows =>
    intro channel hchannel row hrow
    have hend : (channel * plan.shape.height + row) * plan.shape.width + plan.shape.width ≤
        input.size :=
      of_decide_eq_true ((plan.planes input hmatch.input_eq).hasRow_of_lt hchannel hrow)
    have hsize := hmatch.input_le
    omega
  case tiles =>
    intro cursor' hcursor tile htile
    obtain rfl := Except.ok.inj (htiles.symm.trans hcursor)
    have hend := (hinside tile htile).1.input_le
    omega
  case blocks =>
    intro h block hblock
    have hend := Schedule.end_le_of_mem h (Nat.zero_le _) hblock
    omega
  case stores =>
    intro cursor' hcursor tile htile row (hrow : row + 1 ≤ plan.shape.outHeight)
    obtain rfl := Except.ok.inj (htiles.symm.trans hcursor)
    have hcolumn : tile.col + tile.outWidth ≤ plan.shape.outWidth :=
      hplan.outWidth_eq ▸ (hinside tile htile).1.output_le
    have hend : (row + 1) * plan.shape.outWidth ≤ plan.shape.planeSize :=
      Nat.mul_le_mul_right plan.shape.outWidth hrow
    rw [Nat.succ_mul] at hend
    omega

/-- What the sizes of a plan, and buffers of which `checks` are the conditions, lead to. A group has
`members` channels, and `buffer` is what a rejected request leaves behind. -/
structure Settles (plan : Plan) (R : Regime) (members : Nat) (checks : List Check)
    (buffer : Array R.Output) (outcome : Except Fault (Outcome R.Output)) : Prop where
  /-- Not all lengths fit. -/
  overflow : ¬ plan.shape.Fits → outcome = .error .sizeOverflow
  /-- A buffer that does not have the exact length is reported. -/
  rejected : plan.shape.Fits → ∀ rejection, verdict checks = .error rejection →
    outcome = .ok ⟨buffer, some rejection, #[]⟩
  /-- If the buffers have the exact lengths, these fit, and so do all other sizes, -/
  fits : verdict checks = .ok () → plan.shape.Fits ∧ plan.Fits members
  /-- except that there can be too many accumulators to count them, or no room. -/
  short : verdict checks = .ok () → ¬ plan.HasRoom R → outcome = .error plan.shortage
  /-- Nothing else is in the way. -/
  done : verdict checks = .ok () → plan.HasRoom R →
    ∃ result log, outcome = .ok ⟨result, none, log⟩

/-- So it is with all plans that are settled. -/
theorem settles_settle (hplan : plan.Valid R) (hR : R.Sound plan.filter) {members : Nat}
    (hpos : 0 < members) (hmembers : members ≤ 64)
    (hgroups : plan.groups = plan.shape.channels ⌈/⌉ members) (buffer : Array R.Output)
    (hinput : input.size ≤ Memory.limit) (hweights : weights.size ≤ Memory.limit)
    (houtput : output.size ≤ Memory.limit) :
    plan.Settles R members (plan.shape.bufferChecks input.size weights.size output.size) buffer
      (plan.settle R buffer output input weights) := by
  have hmatch (h : verdict (plan.shape.bufferChecks input.size weights.size output.size) = .ok ()) :
      plan.Matches input weights output :=
    have hsizes := Shape.bufferChecks_eq_ok_iff.1 h
    ⟨hsizes.1.symm, hsizes.2.1.symm, hsizes.2.2.symm, hinput, hweights, houtput⟩
  constructor
  case overflow =>
    intro hlengths
    have hcheck : plan.shape.checkBuffers input.size weights.size output.size =
      .error .sizeOverflow := bind_of_eq_error (Shape.lengths_overflow hlengths) _
    exact bind_of_eq_error hcheck _
  case rejected =>
    intro hlengths rejection hrejection
    have hcheck := Shape.checkBuffers_eq_verdict hplan.toValid hlengths input.size weights.size
      output.size
    rw [settle, bind_of_eq_ok hcheck, hrejection]
    rfl
  case fits =>
    intro hok
    exact ⟨(hmatch hok).shape_fits hplan, (hmatch hok).fits hplan hpos hmembers hgroups⟩
  case short =>
    intro hok hroom
    rw [(hmatch hok).settle_eq hplan, bind_of_eq_error (run_error hR hplan hroom (hmatch hok))]
  case done =>
    intro hok hroom
    obtain ⟨log, hrun⟩ := run_ok hR hplan hroom (hmatch hok)
    exact ⟨_, log, by rw [(hmatch hok).settle_eq hplan, bind_of_eq_ok hrun]⟩

end Buffers

end Plan

namespace Precision

/-- How many channels form a group. -/
def members : Precision → Nat
  | sameWidth _ => 1
  | widening _ => 1
  | packed .. => 2
  | bitSerial word .. => word.bits

theorem members_pos (precision : Precision) : 0 < precision.members := by
  cases precision with
  | bitSerial word => exact word.bits_pos
  | _ => exact Nat.succ_pos _

theorem members_le (precision : Precision) : precision.members ≤ 64 := by
  cases precision with
  | bitSerial word =>
    show word.bits ≤ 64
    cases word <;> decide
  | _ => exact Nat.le_of_ble_eq_true rfl

/-- All groups but the last one are full. -/
theorem groups_eq_ceilDiv (precision : Precision) (channels : Nat) :
    precision.regime.groups channels = channels ⌈/⌉ precision.members := by
  cases precision with
  | sameWidth element => cases element <;> exact (ceilDiv_one channels).symm
  | widening narrow => exact (ceilDiv_one channels).symm
  | packed => exact Packed.groups_eq_ceilDiv channels
  | bitSerial word => exact BitSerial.groups_eq_ceilDiv _ word.bits_pos channels

end Precision

namespace Request

/-- What the sizes of a request lead to. A request whose plan is rejected asks for no lengths. A
request whose lengths do not fit ends in an overflow. If they fit, they are compared as they are,
and buffers that match them bound every other size, apart from the number of accumulators. A request
with a buffer of its own makes this buffer before it asks for the other lengths. -/
theorem sizes_settle (precision : Precision) (request : Request) (ambient : VectorUnit)
    (output : Array precision.regime.Output) (input : Array precision.regime.Input)
    (weights : Array precision.regime.Weight) (houtput : output.size ≤ Memory.limit)
    (hinput : input.size ≤ Memory.limit) (hweights : weights.size ≤ Memory.limit) :
    (∀ rejection, request.plan precision.regime ambient = .error rejection →
      request.execute precision.regime ambient output input weights =
          .ok ⟨output, some rejection, #[]⟩ ∧
        request.compute precision.regime ambient input weights = .ok ⟨#[], some rejection, #[]⟩) ∧
    ∀ plan, request.plan precision.regime ambient = .ok plan →
      plan.shape = request.shape ∧
      plan.Settles precision.regime precision.members
        (plan.shape.bufferChecks input.size weights.size output.size) output
        (request.execute precision.regime ambient output input weights) ∧
      (¬ plan.shape.OutputFits →
        request.compute precision.regime ambient input weights = .error .sizeOverflow) ∧
      (plan.shape.OutputFits →
        if plan.shape.outputSize * precision.regime.footprint.output ≤ Memory.limit then
          plan.Settles precision.regime precision.members
            (plan.shape.bufferChecks input.size weights.size plan.shape.outputSize) #[]
            (request.compute precision.regime ambient input weights)
        else
          request.compute precision.regime ambient input weights = .error .memoryExhausted) := by
  constructor
  · intro rejection hrejected
    rw [execute, compute, hrejected]
    exact ⟨rfl, rfl⟩
  · intro plan hplan
    have hvalid := valid_of_plan hplan
    have hR := precision.sound hvalid.accepted
    have hgroups : plan.groups = plan.shape.channels ⌈/⌉ precision.members := by
      rw [hvalid.groups_eq, precision.groups_eq_ceilDiv]
    refine ⟨shape_eq_of_plan hplan, ?execute, compute_overflow hplan, ?compute⟩
    case execute =>
      rw [execute_eq_settle hplan]
      exact Plan.settles_settle hvalid hR precision.members_pos precision.members_le hgroups output
        hinput hweights houtput
    case compute =>
      intro hfits
      split
      · rename_i hroom
        have hsize : (Array.replicate plan.shape.outputSize precision.regime.vacantOutput).size ≤
            Memory.limit := by
          rw [Array.size_replicate]
          exact Memory.le_limit_of_room hR.output_pos hroom
        have hsettles := Plan.settles_settle hvalid hR precision.members_pos precision.members_le
          hgroups #[] hinput hweights hsize
        rw [Array.size_replicate] at hsettles
        rwa [compute_eq_settle hplan hfits hroom]
      · rename_i hroom
        exact compute_exhausted hplan hfits hroom

/-- All sizes of a plane of a single window fit, and an input that is too short is reported. With
the largest block there is, the same buffers end in an overflow. -/
theorem sizes_settle_single_window :
    (Plan.Fits ⟨⟨3, 3, 1, 3, 1⟩, .three, 3, 8, 1⟩ 1 ∧ ∃ result log,
      execute ⟨⟨3, 3, 1, 3, 1⟩, none, none⟩ (Precision.widening .int8).regime .standard
        #[7#32] (Array.replicate 9 2#8) (Array.replicate 9 3#8) = .ok ⟨result, none, log⟩) ∧
    execute ⟨⟨3, 3, 1, 3, 1⟩, none, none⟩ (Precision.widening .int8).regime .standard
      #[7#32] (Array.replicate 8 2#8) (Array.replicate 9 3#8) =
        .ok ⟨#[7#32], some (.wrongLength .input 9 8), #[]⟩ ∧
    execute ⟨⟨3, 3, 1, 3, 1⟩, none, some 18446744073709551615⟩ (Precision.widening .int8).regime
      .standard #[7#32] (Array.replicate 9 2#8) (Array.replicate 9 3#8) =
        .error .sizeOverflow := by
  have hplan : plan ⟨⟨3, 3, 1, 3, 1⟩, none, none⟩ (Precision.widening .int8).regime .standard =
      .ok ⟨⟨3, 3, 1, 3, 1⟩, .three, 3, 8, 1⟩ := rfl
  have hfits : Shape.Fits ⟨3, 3, 1, 3, 1⟩ :=
    ⟨⟨by decide, by decide, by decide⟩, by decide, by decide⟩
  refine ⟨?_, ?_, ?_⟩
  · have hsettle := sizes_settle (.widening .int8) ⟨⟨3, 3, 1, 3, 1⟩, none, none⟩ .standard
      #[7#32] (Array.replicate 9 2#8) (Array.replicate 9 3#8) (by decide) (by decide) (by decide)
    have hsettles := (hsettle.2 _ hplan).2.1
    exact ⟨(hsettles.fits rfl).2, hsettles.done rfl ⟨by decide, fun _ _ => by decide⟩⟩
  · have hsettle := sizes_settle (.widening .int8) ⟨⟨3, 3, 1, 3, 1⟩, none, none⟩ .standard
      #[7#32] (Array.replicate 8 2#8) (Array.replicate 9 3#8) (by decide) (by decide) (by decide)
    exact (hsettle.2 _ hplan).2.1.rejected hfits _ rfl
  · have hsettle := sizes_settle (.widening .int8)
      ⟨⟨3, 3, 1, 3, 1⟩, none, some 18446744073709551615⟩ .standard
      #[7#32] (Array.replicate 9 2#8) (Array.replicate 9 3#8) (by decide) (by decide) (by decide)
    exact (hsettle.2 ⟨⟨3, 3, 1, 3, 1⟩, .three, 3, 18446744073709551615, 1⟩ rfl).2.1.short rfl
      fun hroom => absurd hroom.slots (by decide)

/-- A plan can be accepted although the filters it asks for have more weights than a machine word
can count. Reduced to a machine word, their number is the length of the two weights that are given,
and so it is with the output; the request ends in an overflow. So does one whose buffers have the
exact lengths, with the largest block there is. -/
theorem sizes_overflow :
    (plan ⟨⟨2, 1, 2, 1, 9223372036854775809⟩, none, none⟩ (Precision.sameWidth .int32).regime
        .standard = .ok ⟨⟨2, 1, 2, 1, 9223372036854775809⟩, .one, 1, 4, 2⟩ ∧
      Shape.inputSize ⟨2, 1, 2, 1, 9223372036854775809⟩ = 4 ∧
      Shape.filterSize ⟨2, 1, 2, 1, 9223372036854775809⟩ = Size.bound + 2 ∧
      Shape.outputSize ⟨2, 1, 2, 1, 9223372036854775809⟩ = Size.bound + 2 ∧
      execute ⟨⟨2, 1, 2, 1, 9223372036854775809⟩, none, none⟩ (Precision.sameWidth .int32).regime
        .standard #[0#32, 0#32] (Array.replicate 4 2#32) #[3#32, 3#32] = .error .sizeOverflow) ∧
    plan ⟨⟨4, 3, 1, 3, 1⟩, none, some 18446744073709551615⟩ (Precision.sameWidth .int32).regime
        .standard = .ok ⟨⟨4, 3, 1, 3, 1⟩, .three, 3, 18446744073709551615, 1⟩ ∧
      ¬ 18446744073709551615 + FilterSize.three.side < Size.bound ∧
      execute ⟨⟨4, 3, 1, 3, 1⟩, none, some 18446744073709551615⟩
        (Precision.sameWidth .int32).regime .standard #[0#32, 0#32] (Array.replicate 12 2#32)
          (Array.replicate 9 3#32) = .error .sizeOverflow :=
  ⟨⟨rfl, rfl, rfl, rfl, rfl⟩, rfl, by decide, rfl⟩

end Request

end DirectConv
