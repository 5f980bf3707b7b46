import DirectConv.Proofs.Precision
import DirectConv.Proofs.Tiling
import Mathlib.Order.Bounds.Basic

/-!
# The plans that are made

A plan is made if and only if shape, vector unit, precision and block satisfy what they are checked
for. The number of lanes comes out of a quotient that could saturate and of two minima. For a unit
that passed its own checks nothing saturates, and the number is the largest one for which the
elements fit the registers, the cap allows them and a row has as many columns. So a filter has
enough lanes as soon as its own columns satisfy the first two of these conditions.

## Main definitions

- `DirectConv.Plan.checks`: all conditions, in the order in which they are reported
- `DirectConv.Precision.Usable`, `DirectConv.Plan.Acceptable`: the same conditions without an order

## Main statements

- `DirectConv.VectorUnit.le_lanesFor_iff`: which numbers of lanes a unit has
- `DirectConv.Plan.make_eq_verdict`: making a plan reports the first condition that fails
- `DirectConv.Plan.make_decides`: which plans are made, and what their lanes and tiles are
-/

namespace DirectConv

namespace VectorUnit

variable {unit : VectorUnit} {elementBits : Nat} {grouping : Grouping}

/-- The register group of a unit that was checked does not saturate. -/
theorem physicalLanes_eq (hunit : unit.registerBits ≤ longestBits) :
    unit.physicalLanes elementBits grouping =
      unit.registerBits * grouping.factor / elementBits := by
  have hfactor : grouping.factor ≤ 8 := by cases grouping <;> decide
  have hbits : unit.registerBits * grouping.factor ≤ longestBits * 8 :=
    Nat.mul_le_mul hunit hfactor
  have hbound : longestBits * 8 ≤ Size.bound - 1 := by decide
  rw [physicalLanes, Size.saturate, Nat.min_eq_left (hbits.trans hbound)]

/-- A unit has as many lanes as its registers hold and its cap allows. -/
theorem le_lanesFor_iff (hunit : unit.registerBits ≤ longestBits) (hbits : 0 < elementBits)
    {n : Nat} : n ≤ unit.lanesFor elementBits grouping ↔
      n * elementBits ≤ unit.registerBits * grouping.factor ∧ ∀ cap ∈ unit.laneCap, n ≤ cap := by
  rw [lanesFor, physicalLanes_eq hunit, ← Nat.le_div_iff_mul_le hbits]
  cases unit.laneCap with
  | none => simp
  | some cap => simp [and_comm]

/-- The filter needs a lane for each of its columns. What is reported is the number there is. -/
def laneCheck (unit : VectorUnit) (elementBits : Nat) (grouping : Grouping) (width : Nat)
    (filter : FilterSize) : Check where
  holds := filter.side * elementBits ≤ unit.registerBits * grouping.factor ∧
    ∀ cap ∈ unit.laneCap, filter.side ≤ cap
  rejection := .tooFewLanes (min (unit.lanesFor elementBits grouping) width) filter

end VectorUnit

namespace Precision

/-- The operands have between one and eight bits. Two channels in one lane also need fields that
hold a group, and a chosen interval that is neither empty nor too long. -/
def Usable (filter : FilterSize) : Precision → Prop
  | sameWidth _ => True
  | widening _ => True
  | packed lane activationBits weightBits flushEvery =>
    let longest :=
      Packed.longestRun ⟨lane.fieldBits, activationBits, weightBits, flushEvery⟩ filter
    (activationBits ∈ Set.Icc 1 8 ∧ weightBits ∈ Set.Icc 1 8) ∧ 1 ≤ longest ∧
      ∀ n ∈ flushEvery, 1 ≤ n ∧ n ≤ longest
  | bitSerial _ activationBits weightBits =>
    activationBits ∈ Set.Icc 1 8 ∧ weightBits ∈ Set.Icc 1 8

theorem checks_hold_iff {precision : Precision} {filter : FilterSize} :
    (∀ check ∈ precision.checks filter, check.holds = true) ↔ precision.Usable filter := by
  rw [← verdict_eq_ok_iff, ← validate_eq_verdict]
  cases precision with
  | sameWidth element => cases element <;> exact iff_of_true rfl trivial
  | widening narrow => exact iff_of_true rfl trivial
  | packed lane activationBits weightBits flushEvery =>
    refine Packed.validate_eq_ok_iff.trans ?_
    rw [Operand.fits_iff, Operand.fits_iff]
    rfl
  | bitSerial word activationBits weightBits =>
    refine Operand.validate_eq_ok_iff.trans ?_
    rw [Operand.fits_iff, Operand.fits_iff]
    rfl

/-- No precision chooses an empty block. -/
theorem blockRows_pos (precision : Precision) (filter : FilterSize) :
    0 < precision.regime.blockRows filter := by
  cases precision with
  | sameWidth element => cases element <;> cases filter <;> decide
  | widening narrow => cases narrow <;> cases filter <;> decide
  | packed lane activationBits weightBits flushEvery => exact Nat.succ_pos 3
  | bitSerial word activationBits weightBits => exact Nat.succ_pos 3

end Precision

namespace Plan

variable (precision : Precision) (shape : Shape) (unit : VectorUnit) (block : Option Nat)

/-- What a plan is checked for: shape, vector unit, precision, lanes for the filter, and block. -/
def checks : List Check :=
  match FilterSize.ofSide? shape.side with
  | none => [⟨False, .unsupportedFilter shape.side⟩]
  | some filter =>
    shape.checks filter ++ (unit.checks ++ (precision.checks filter ++ [
      unit.laneCheck precision.regime.elementBits precision.regime.grouping shape.width filter,
      ⟨block ≠ some 0, .emptyBlock⟩]))

/-- The conditions under which a plan with the given filter is made. -/
structure Acceptable (filter : FilterSize) : Prop extends shape.Valid filter where
  registerBits_ge : 64 ≤ unit.registerBits
  registerBits_le : unit.registerBits ≤ 65536
  registerBits_power : unit.registerBits.isPowerOfTwo
  laneCap_ne_zero : unit.laneCap ≠ some 0
  usable : precision.Usable filter
  /-- A register group holds as many elements as the filter has columns. -/
  lanes_fit : filter.side * precision.regime.elementBits ≤
    unit.registerBits * precision.regime.grouping.factor
  lanes_allowed : ∀ cap ∈ unit.laneCap, filter.side ≤ cap
  block_ne_zero : block ≠ some 0

variable {precision shape unit block} {filter : FilterSize} {plan : Plan}

theorem chooseLanes_eq_verdict (hwidth : filter.side ≤ shape.width)
    (hunit : unit.registerBits ≤ VectorUnit.longestBits) :
    discard (chooseLanes precision.regime shape unit block filter) = verdict [
      unit.laneCheck precision.regime.elementBits precision.regime.grouping shape.width filter,
      ⟨block ≠ some 0, .emptyBlock⟩] := by
  have hlanes : min (unit.lanesFor precision.regime.elementBits precision.regime.grouping)
      shape.width < filter.side ↔
        ¬ (filter.side * precision.regime.elementBits ≤
          unit.registerBits * precision.regime.grouping.factor ∧
            ∀ cap ∈ unit.laneCap, filter.side ≤ cap) := by
    -- a row is never too short, so the minimum with its width does not matter
    rw [← VectorUnit.le_lanesFor_iff hunit precision.elementBits_pos, Nat.not_le]
    omega
  have hblock : block.getD (precision.regime.blockRows filter) = 0 ↔ ¬ (block ≠ some 0) := by
    have hpos := precision.blockRows_pos filter
    cases block with
    | none => simp; omega
    | some n => simp
  rw [VectorUnit.laneCheck, verdict_cons, verdict_cons, verdict_nil, chooseLanes]
  by_cases hfew : min (unit.lanesFor precision.regime.elementBits precision.regime.grouping)
      shape.width < filter.side
  · rw [if_pos hfew, if_neg (hlanes.1 hfew)]
    rfl
  · rw [if_neg hfew, if_pos (not_not.1 (mt hlanes.2 hfew))]
    by_cases hempty : block.getD (precision.regime.blockRows filter) = 0
    · rw [if_pos hempty, if_neg (hblock.1 hempty)]
      rfl
    · rw [if_neg hempty, if_pos (not_not.1 (mt hblock.2 hempty))]
      rfl

/-- Making a plan reports the first condition that fails, if there is one. -/
theorem make_eq_verdict : discard (make precision.regime shape unit block) =
    verdict (checks precision shape unit block) := by
  rw [make_eq_bind, Shape.validate_eq_verdict, checks]
  cases hfilter : FilterSize.ofSide? shape.side with
  | none => rfl
  | some filter =>
    have hside := FilterSize.side_of_ofSide? hfilter
    simp only [discard_bind, bind_assoc, verdict_append, VectorUnit.validate_eq_verdict,
      Precision.validate_eq_verdict]
    -- the comparison of lanes and filter relies on what shape and unit were checked for
    refine verdict_bind_congr fun hshape => ?_
    refine verdict_bind_congr fun hunit => ?_
    refine congrArg _ (funext fun _ => ?_)
    rw [Shape.checks, List.forall_mem_cons, decide_eq_true_eq, ← hside] at hshape
    simp only [VectorUnit.checks, List.forall_mem_cons, decide_eq_true_eq] at hunit
    exact chooseLanes_eq_verdict hshape.1.2 hunit.2.1

/-- For a supported filter the conditions are those of an acceptable plan. -/
theorem checks_hold_iff (hside : shape.side = filter.side) :
    (∀ check ∈ checks precision shape unit block, check.holds = true) ↔
      Acceptable precision shape unit block filter := by
  rw [checks, hside, FilterSize.ofSide?_side]
  simp only [Shape.checks, VectorUnit.checks, VectorUnit.laneCheck, List.forall_mem_append,
    List.forall_mem_cons, Precision.checks_hold_iff, decide_eq_true_eq, List.not_mem_nil,
    false_implies, implies_true, and_true, hside]
  constructor
  · rintro ⟨⟨⟨hheight, hwidth⟩, hchannels⟩, ⟨⟨hge, hpower⟩, hle, hcap⟩, husable, ⟨hfit, hallowed⟩,
      hblock⟩
    exact ⟨⟨hside, hheight, hwidth, hchannels⟩, hge, hle, hpower, hcap, husable, hfit, hallowed,
      hblock⟩
  · intro h
    exact ⟨⟨⟨h.side_le_height, h.side_le_width⟩, h.channels_pos⟩,
      ⟨⟨h.registerBits_ge, h.registerBits_power⟩, h.registerBits_le, h.laneCap_ne_zero⟩, h.usable,
      ⟨h.lanes_fit, h.lanes_allowed⟩, h.block_ne_zero⟩

theorem exists_make_iff : (∃ plan, make precision.regime shape unit block = .ok plan) ↔
    ∃ filter, Acceptable precision shape unit block filter := by
  rw [← discard_eq_ok_iff, make_eq_verdict, verdict_eq_ok_iff]
  constructor
  · intro h
    cases hfilter : FilterSize.ofSide? shape.side with
    | none =>
      rw [checks, hfilter] at h
      simp at h
    | some filter =>
      exact ⟨filter, (checks_hold_iff (FilterSize.side_of_ofSide? hfilter).symm).1 h⟩
  · rintro ⟨filter, h⟩
    exact (checks_hold_iff h.side_eq).2 h

/-- Longer registers and a higher cap satisfy the same conditions. -/
theorem Acceptable.mono {unit' : VectorUnit} (h : Acceptable precision shape unit block filter)
    (hbits : unit.registerBits ≤ unit'.registerBits) (hle : unit'.registerBits ≤ 65536)
    (hpower : unit'.registerBits.isPowerOfTwo)
    (hcap : ∀ cap' ∈ unit'.laneCap, ∃ cap ∈ unit.laneCap, cap ≤ cap') :
    Acceptable precision shape unit' block filter := by
  have hallowed : ∀ cap' ∈ unit'.laneCap, filter.side ≤ cap' := by
    intro cap' hcap'
    obtain ⟨cap, hmem, hcap⟩ := hcap cap' hcap'
    exact (h.lanes_allowed cap hmem).trans hcap
  have hne : unit'.laneCap ≠ some 0 := by
    intro hzero
    exact Nat.not_le_of_lt filter.side_pos (hallowed 0 hzero)
  exact { h with
    registerBits_ge := h.registerBits_ge.trans hbits
    registerBits_le := hle
    registerBits_power := hpower
    laneCap_ne_zero := hne
    lanes_fit := h.lanes_fit.trans (Nat.mul_le_mul_right _ hbits)
    lanes_allowed := hallowed }

theorem maxLanes_of_make {R : Regime} (h : make R shape unit block = .ok plan) :
    unit.registerBits ≤ VectorUnit.longestBits ∧
      plan.maxLanes = min (unit.lanesFor R.elementBits R.grouping) shape.width := by
  simp only [make_eq_bind, bind_eq_ok_iff] at h
  obtain ⟨filter, -, ⟨⟩, hunit, ⟨⟩, -, hlanes⟩ := h
  obtain ⟨-, -, rfl⟩ := chooseLanes_eq_ok_iff.1 hlanes
  exact ⟨(VectorUnit.validate_eq_ok_iff.1 hunit).2.1, rfl⟩

/-- The lanes of a plan are the most that registers, cap and row allow. -/
theorem isGreatest_maxLanes (h : make precision.regime shape unit block = .ok plan) :
    IsGreatest {n | n * precision.regime.elementBits ≤
        unit.registerBits * precision.regime.grouping.factor ∧
      (∀ cap ∈ unit.laneCap, n ≤ cap) ∧ n ≤ shape.width} plan.maxLanes := by
  obtain ⟨hunit, hlanes⟩ := maxLanes_of_make h
  have hset : {n | n * precision.regime.elementBits ≤
        unit.registerBits * precision.regime.grouping.factor ∧
      (∀ cap ∈ unit.laneCap, n ≤ cap) ∧ n ≤ shape.width} = Set.Iic plan.maxLanes := by
    ext n
    rw [Set.mem_ofPred_eq, Set.mem_Iic, hlanes, ← and_assoc,
      ← VectorUnit.le_lanesFor_iff hunit precision.elementBits_pos, Nat.le_min]
  rw [hset]
  exact isGreatest_Iic

/-- The tiles of a plan are the output columns, divided among the lanes and rounded up. -/
theorem tileCount_of_make {R : Regime} (h : make R shape unit block = .ok plan)
    (hwidth : shape.width + 1 < Size.bound) :
    plan.tileCount =
        .ok ((shape.width + 1 - shape.side) ⌈/⌉ (plan.maxLanes + 1 - shape.side)) ∧
      1 ≤ (shape.width + 1 - shape.side) ⌈/⌉ (plan.maxLanes + 1 - shape.side) := by
  obtain ⟨rfl, hvalid⟩ := valid_of_make h
  have hside := hvalid.side_eq
  have hlanes := hvalid.side_le_maxLanes
  have hrow := hvalid.maxLanes_le_width
  obtain ⟨cursor, hstart, htotal, hstep, -, hcol⟩ := TileCursor.start_ok plan.filter.side_pos
    hvalid.side_le_width hlanes hwidth (by omega)
  have hcount : cursor.remaining =
      (plan.shape.width + 1 - plan.shape.side) ⌈/⌉ (plan.maxLanes + 1 - plan.shape.side) := by
    rw [TileCursor.remaining_eq_ceilDiv, htotal, hstep, hcol, hside, Nat.sub_zero]
  constructor
  · rw [tileCount, tiles, bind_of_eq_ok hstart, ← hcount]
    rfl
  · rw [Nat.ceilDiv_eq_add_pred_div]
    exact Nat.div_pos (by omega) (by omega)

/-- Which plans are made. A plan is made if and only if its conditions hold; its number of lanes is
the largest one that registers, cap and row allow, so it has a lane for each column of the filter,
and at least one tile. A plan that is not made is rejected for the first condition that fails. So
longer registers and a higher cap never lead to a rejection. -/
theorem make_decides (precision : Precision) (shape : Shape) (unit : VectorUnit)
    (block : Option Nat) :
    ((∃ plan, make precision.regime shape unit block = .ok plan) ↔
      ∃ filter, Acceptable precision shape unit block filter) ∧
    (∀ plan, make precision.regime shape unit block = .ok plan →
      IsGreatest {n | n * precision.regime.elementBits ≤
          unit.registerBits * precision.regime.grouping.factor ∧
        (∀ cap ∈ unit.laneCap, n ≤ cap) ∧ n ≤ shape.width} plan.maxLanes ∧
      shape.side ≤ plan.maxLanes ∧ plan.maxLanes ≤ shape.width ∧
      (shape.width + 1 < Size.bound →
        plan.tileCount =
          .ok ((shape.width + 1 - shape.side) ⌈/⌉ (plan.maxLanes + 1 - shape.side)) ∧
        1 ≤ (shape.width + 1 - shape.side) ⌈/⌉ (plan.maxLanes + 1 - shape.side))) ∧
    (∀ rejection, make precision.regime shape unit block = .error rejection ↔
      ∃ passed check rest, checks precision shape unit block = passed ++ check :: rest ∧
        (∀ before ∈ passed, before.holds = true) ∧ check.holds = false ∧
          check.rejection = rejection) ∧
    ∀ unit' : VectorUnit, unit.registerBits ≤ unit'.registerBits → unit'.registerBits ≤ 65536 →
      unit'.registerBits.isPowerOfTwo →
      (∀ cap' ∈ unit'.laneCap, ∃ cap ∈ unit.laneCap, cap ≤ cap') →
      (∃ plan, make precision.regime shape unit block = .ok plan) →
        ∃ plan, make precision.regime shape unit' block = .ok plan := by
  refine ⟨exists_make_iff, ?_, ?_, ?_⟩
  · intro plan h
    obtain ⟨rfl, hvalid⟩ := valid_of_make h
    exact ⟨isGreatest_maxLanes h, hvalid.side_eq ▸ hvalid.side_le_maxLanes,
      hvalid.maxLanes_le_width, tileCount_of_make h⟩
  · intro rejection
    rw [← discard_eq_error_iff, make_eq_verdict, verdict_eq_error_iff]
  · intro unit' hbits hle hpower hcap hmade
    obtain ⟨filter, h⟩ := exists_make_iff.1 hmade
    exact exists_make_iff.2 ⟨filter, h.mono hbits hle hpower hcap⟩

/-- Registers of 64 bits, and rows of five bytes: a cap of three lanes leaves one window to each of
three tiles, and a cap of two lanes leaves no room for a window. -/
theorem make_decides_caps :
    (∃ plan, make (Precision.sameWidth .int8).regime ⟨3, 5, 1, 3, 1⟩ ⟨64, some 3⟩ none = .ok plan ∧
      plan.maxLanes = 3 ∧ plan.tileCount = .ok 3) ∧
    make (Precision.sameWidth .int8).regime ⟨3, 5, 1, 3, 1⟩ ⟨64, some 2⟩ none =
      .error (.tooFewLanes 2 .three) := by
  obtain ⟨hmade, hplan, -⟩ := make_decides (.sameWidth .int8) ⟨3, 5, 1, 3, 1⟩ ⟨64, some 3⟩ none
  obtain ⟨-, -, hrejected, -⟩ := make_decides (.sameWidth .int8) ⟨3, 5, 1, 3, 1⟩ ⟨64, some 2⟩ none
  constructor
  · obtain ⟨plan, h⟩ := hmade.2 ⟨.three, ⟨rfl, by decide, by decide, by decide⟩, by decide,
      by decide, ⟨6, rfl⟩, by decide, trivial, by decide, by decide, by decide⟩
    obtain ⟨hgreatest, hside, -, htiles⟩ := hplan plan h
    obtain ⟨-, hcap, -⟩ := hgreatest.1
    have hlanes : plan.maxLanes = 3 := Nat.le_antisymm (hcap 3 rfl) hside
    obtain ⟨hcount, -⟩ := htiles (by decide)
    rw [hlanes] at hcount
    exact ⟨plan, h, hlanes, hcount⟩
  · exact (hrejected _).2 ⟨Shape.checks ⟨3, 5, 1, 3, 1⟩ .three ++ VectorUnit.checks ⟨64, some 2⟩,
      VectorUnit.laneCheck ⟨64, some 2⟩ 8 .two 5 .three, [⟨true, .emptyBlock⟩], rfl, by decide,
      by decide, by decide⟩

end Plan

end DirectConv
