import DirectConv.Proofs.Checks
import DirectConv.Proofs.Loop

/-!
# Accepted requests

What is known of a shape that was accepted, and of a plan that was made.

## Main definitions

- `DirectConv.Plan.Valid`: the conditions a plan was checked for
- `DirectConv.Plan.chooseLanes`: the last part of making a plan

## Main statements

- `DirectConv.Plan.valid_of_make`: a plan that was made is valid
-/

namespace DirectConv

namespace VectorUnit

variable {unit : VectorUnit}

/-- The elements of a register group have no more bits than eight registers. -/
theorem lanesFor_mul_le (h : unit.validate = .ok ()) (elementBits : Nat) (grouping : Grouping) :
    unit.lanesFor elementBits grouping * elementBits ≤ 8 * longestBits := by
  have hphysical : unit.physicalLanes elementBits grouping * elementBits ≤ 8 * longestBits :=
    calc unit.physicalLanes elementBits grouping * elementBits
        ≤ Size.saturate (unit.registerBits * grouping.factor) := Nat.div_mul_le_self _ _
      _ ≤ unit.registerBits * grouping.factor := Nat.min_le_left _ _
      _ ≤ longestBits * 8 :=
        Nat.mul_le_mul (validate_eq_ok_iff.1 h).2.1 (by cases grouping <;> decide)
      _ = 8 * longestBits := Nat.mul_comm _ _
  unfold lanesFor
  split
  · exact hphysical
  · exact Nat.le_trans (Nat.mul_le_mul_right _ (Nat.min_le_right _ _)) hphysical

/-- Elements without bits have no lanes. -/
theorem lanesFor_zero (unit : VectorUnit) (grouping : Grouping) : unit.lanesFor 0 grouping = 0 := by
  unfold lanesFor physicalLanes
  split <;> simp

end VectorUnit

namespace Shape

/-- A shape that holds at least one window of a supported filter. -/
structure Valid (shape : Shape) (filter : FilterSize) : Prop where
  side_eq : shape.side = filter.side
  side_le_height : filter.side ≤ shape.height
  side_le_width : filter.side ≤ shape.width
  channels_pos : 0 < shape.channels

theorem validate_eq_ok_iff {shape : Shape} {filter : FilterSize} :
    shape.validate = .ok filter ↔ shape.Valid filter := by
  rw [validate_eq_verdict]
  constructor
  · intro h
    split at h
    · cases h
    · rename_i found hfound
      obtain ⟨⟨⟩, hchecks, hfilter⟩ := bind_eq_ok_iff.1 h
      obtain rfl := Except.ok.inj hfilter
      have hside := FilterSize.side_of_ofSide? hfound
      rw [verdict_eq_ok_iff, checks, ← hside] at hchecks
      simp only [List.forall_mem_cons, decide_eq_true_eq] at hchecks
      obtain ⟨⟨hheight, hwidth⟩, hchannels, -⟩ := hchecks
      exact ⟨hside.symm, hheight, hwidth, hchannels⟩
  · rintro ⟨hside, hheight, hwidth, hchannels⟩
    have hchecks : verdict (shape.checks filter) = .ok () := by
      rw [verdict_eq_ok_iff, checks, hside]
      simp [hheight, hwidth, hchannels]
    rw [hside, FilterSize.ofSide?_side]
    exact bind_eq_ok_iff.2 ⟨(), hchecks, rfl⟩

theorem valid_of_validate {shape : Shape} {filter : FilterSize}
    (h : shape.validate = .ok filter) : shape.Valid filter :=
  validate_eq_ok_iff.1 h

variable {shape : Shape} {filter : FilterSize}

theorem Valid.height_le_inputSize (h : shape.Valid filter) : shape.height ≤ shape.inputSize :=
  calc shape.height
      ≤ shape.channels * shape.height := Nat.le_mul_of_pos_left _ h.channels_pos
    _ ≤ shape.inputSize := Nat.le_mul_of_pos_right _
        (Nat.lt_of_lt_of_le filter.side_pos h.side_le_width)

theorem Valid.width_le_inputSize (h : shape.Valid filter) : shape.width ≤ shape.inputSize :=
  Nat.le_mul_of_pos_left _ (Nat.mul_pos h.channels_pos
    (Nat.lt_of_lt_of_le filter.side_pos h.side_le_height))

theorem Valid.channels_le_inputSize (h : shape.Valid filter) : shape.channels ≤ shape.inputSize :=
  calc shape.channels
      ≤ shape.channels * shape.height := Nat.le_mul_of_pos_right _
        (Nat.lt_of_lt_of_le filter.side_pos h.side_le_height)
    _ ≤ shape.inputSize := Nat.le_mul_of_pos_right _
        (Nat.lt_of_lt_of_le filter.side_pos h.side_le_width)

theorem Valid.outHeight_eq (h : shape.Valid filter) :
    shape.height + 1 - filter.side = shape.outHeight := by
  rw [← h.side_eq]
  rfl

theorem Valid.outWidth_eq (h : shape.Valid filter) :
    shape.width + 1 - filter.side = shape.outWidth := by
  rw [← h.side_eq]
  rfl

theorem Valid.outHeight_pos (h : shape.Valid filter) : 0 < shape.outHeight := by
  have := h.side_le_height
  rw [← h.outHeight_eq]
  omega

theorem Valid.outWidth_pos (h : shape.Valid filter) : 0 < shape.outWidth := by
  have := h.side_le_width
  rw [← h.outWidth_eq]
  omega

end Shape

namespace Plan

/-- What a plan was checked for. -/
structure Valid (plan : Plan) (R : Regime) : Prop extends plan.shape.Valid plan.filter where
  accepted : R.validate plan.filter = .ok ()
  side_le_maxLanes : plan.filter.side ≤ plan.maxLanes
  maxLanes_le_width : plan.maxLanes ≤ plan.shape.width
  lanes_le : plan.maxLanes * R.elementBits ≤ 8 * VectorUnit.longestBits
  elementBits_pos : 0 < R.elementBits
  block_pos : 0 < plan.block
  groups_eq : plan.groups = R.groups plan.shape.channels

section Make

variable {R : Regime} {shape : Shape} {unit : VectorUnit} {block : Option Nat} {plan : Plan}

/-- The last part of making a plan: lanes and block for a filter. -/
def chooseLanes (R : Regime) (shape : Shape) (unit : VectorUnit) (block : Option Nat)
    (filter : FilterSize) : Except Rejection Plan :=
  let maxLanes := min (unit.lanesFor R.elementBits R.grouping) shape.width
  let block := block.getD (R.blockRows filter)
  if maxLanes < filter.side then .error (.tooFewLanes maxLanes filter)
  else if block = 0 then .error .emptyBlock
  else .ok { shape, filter, maxLanes, block, groups := R.groups shape.channels }

theorem make_eq_bind : make R shape unit block =
    shape.validate >>= fun filter => unit.validate >>= fun _ => R.validate filter >>= fun _ =>
      chooseLanes R shape unit block filter :=
  rfl

theorem chooseLanes_eq_ok_iff {filter : FilterSize} :
    chooseLanes R shape unit block filter = .ok plan ↔
      filter.side ≤ min (unit.lanesFor R.elementBits R.grouping) shape.width ∧
        0 < block.getD (R.blockRows filter) ∧
          plan = ⟨shape, filter, min (unit.lanesFor R.elementBits R.grouping) shape.width,
            block.getD (R.blockRows filter), R.groups shape.channels⟩ := by
  rw [chooseLanes]
  split
  · rename_i hfew
    exact iff_of_false nofun fun h => Nat.not_le_of_lt hfew h.1
  · rename_i hlanes
    split
    · rename_i hempty
      exact iff_of_false nofun fun h => Nat.ne_of_gt h.2.1 hempty
    · rename_i hblock
      rw [Except.ok.injEq, eq_comm]
      exact ⟨fun h => ⟨Nat.le_of_not_lt hlanes, Nat.pos_of_ne_zero hblock, h⟩, fun h => h.2.2⟩

/-- A plan that was made is valid, and is a plan for the shape it was made for. -/
theorem valid_of_make (h : make R shape unit block = .ok plan) :
    plan.shape = shape ∧ plan.Valid R := by
  simp only [make_eq_bind, bind_eq_ok_iff] at h
  obtain ⟨filter, hshape, ⟨⟩, hunit, ⟨⟩, hregime, h⟩ := h
  obtain ⟨hlanes, hblock, rfl⟩ := chooseLanes_eq_ok_iff.1 h
  have hwidth := Nat.min_le_right (unit.lanesFor R.elementBits R.grouping) shape.width
  have hunit' := VectorUnit.lanesFor_mul_le hunit R.elementBits R.grouping
  refine ⟨rfl, Shape.valid_of_validate hshape, hregime, hlanes, hwidth, ?_, ?_, hblock, rfl⟩
  · exact Nat.le_trans (Nat.mul_le_mul_right _ (Nat.min_le_left _ _)) hunit'
  -- elements without bits would leave no lane for a filter
  · refine Nat.pos_of_ne_zero fun hzero => Nat.not_lt_of_le hlanes ?_
    rw [hzero, VectorUnit.lanesFor_zero, Nat.zero_min]
    exact filter.side_pos

end Make

/-- A register group holds an element. -/
theorem Valid.elementBits_le {R : Regime} {plan : Plan} (hplan : plan.Valid R) :
    R.elementBits ≤ 8 * VectorUnit.longestBits :=
  Nat.le_trans (Nat.le_mul_of_pos_left _
    (Nat.lt_of_lt_of_le plan.filter.side_pos hplan.side_le_maxLanes)) hplan.lanes_le

end Plan

end DirectConv
