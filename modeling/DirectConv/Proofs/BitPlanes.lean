import DirectConv.Proofs.Dot
import DirectConv.Regime.BitSerial
import Mathlib.Algebra.BigOperators.Intervals
import Mathlib.Tactic.Ring

/-!
# Products of bit planes

The low bits of a number are the sum of its bits, each with its weight. So a product of two numbers
is a sum over pairs of bits, and a sum of such products over the channels of a group is a sum over
pairs of planes of the number of channels in which both bits are set. The pairs of the same weight
form a diagonal, and the diagonals go through all pairs once.

## Main statements

- `DirectConv.sum_diagonals`: the diagonals go through all pairs
- `DirectConv.BitSerial.sum_planeCount`: the weighted numbers of ones are the sum of products
-/

namespace DirectConv

open Finset

theorem onesBelow_eq_sum (n x : Nat) : onesBelow n x = ∑ i ∈ range n, (x.testBit i).toNat := by
  induction n generalizing x with
  | zero => rfl
  | succ n ih =>
    rw [onesBelow, sum_range_succ']
    split
    · rename_i hzero
      simp [hzero]
    · simp only [ih, Nat.testBit_succ, Nat.testBit_zero]
      rcases Nat.mod_two_eq_zero_or_one x with h | h <;> simp [h, Nat.add_comm]

theorem popcount_eq_sum {n : Nat} (word : BitVec n) :
    popcount word = ∑ i ∈ range n, (word.getLsbD i).toNat :=
  onesBelow_eq_sum n word.toNat

/-- The low bits of a number, each with its weight. -/
theorem sum_testBit (x bits : Nat) :
    ∑ i ∈ range bits, 2 ^ i * (x.testBit i).toNat = x % 2 ^ bits := by
  induction bits with
  | zero => simp [Nat.mod_one]
  | succ bits ih => rw [sum_range_succ, ih, Nat.mod_pow_succ, Nat.toNat_testBit]

/-- The diagonals of a rectangle go through all its places. -/
theorem sum_diagonals (f : Nat → Nat → Nat) {m n : Nat} (hm : 0 < m) (hn : 0 < n) :
    ∑ k ∈ range (m + n - 1), ∑ i ∈ Ico (k - (n - 1)) (min k (m - 1) + 1), f i (k - i) =
      ∑ i ∈ range m, ∑ j ∈ range n, f i j := by
  -- the diagonal `k` holds the pairs with `i + j = k`
  rw [sum_sigma', sum_sigma']
  refine sum_bij' (fun p _ => ⟨p.2, p.1 - p.2⟩) (fun p _ => ⟨p.1 + p.2, p.1⟩) ?_ ?_ ?_ ?_ ?_
  · rintro ⟨k, i⟩ h
    simp only [mem_sigma, mem_range, mem_Ico] at h ⊢
    omega
  · rintro ⟨i, j⟩ h
    simp only [mem_sigma, mem_range, mem_Ico] at h ⊢
    omega
  · rintro ⟨k, i⟩ h
    simp only [mem_sigma, mem_range, mem_Ico] at h
    simp only [Sigma.mk.injEq, heq_eq_eq, and_true]
    omega
  · rintro ⟨i, j⟩ -
    simp
  · rintro ⟨k, i⟩ -
    rfl

theorem sum_weighted_diagonals (f : Nat → Nat → Nat) {m n : Nat} (hm : 0 < m) (hn : 0 < n) :
    ∑ k ∈ range (m + n - 1), 2 ^ k * ∑ i ∈ Ico (k - (n - 1)) (min k (m - 1) + 1), f i (k - i) =
      ∑ i ∈ range m, ∑ j ∈ range n, 2 ^ (i + j) * f i j := by
  rw [← sum_diagonals (fun i j => 2 ^ (i + j) * f i j) hm hn]
  refine sum_congr rfl fun k _ => ?_
  rw [mul_sum]
  refine sum_congr rfl fun i hi => ?_
  have hi' : i ≤ k := by
    have := (mem_Ico.1 hi).2
    omega
  rw [Nat.add_sub_cancel' hi']

theorem foldl_range'_add (f : Nat → Nat) (start count : Nat) :
    (List.range' start count).foldl (fun sum i => sum + f i) 0 =
      ∑ i ∈ Ico start (start + count), f i := by
  rw [List.range'_eq_map_range, List.foldl_map, sum_Ico_eq_sum_range, Nat.add_sub_cancel_left]
  exact (foldl_range_add (fun t => f (start + t)) 0 count).trans (zero_add _)

namespace BitPlanes

variable {n bits count : Nat}

theorem getLsbD_plane_ofValues (hbits : bits ≤ planeLimit) (value : Nat → BitVec 8) {p : Nat}
    (hp : p < bits) (channel : Nat) :
    ((ofValues n bits count value).plane p).getLsbD channel =
      (decide (channel < n) && (decide (channel < count) && (value channel).getLsbD p)) := by
  have hplane : p < planeLimit := Nat.lt_of_lt_of_le hp hbits
  rw [plane, ofValues, Vector.getElem?_ofFn, dif_pos hplane, Option.getD_some, if_pos hp,
    getLsbD_wordOfBits]

/-- The number of channels in which a bit of one value and a bit of the other are set. -/
theorem popcount_plane_and_plane {bits' : Nat} (hbits : bits ≤ planeLimit)
    (hbits' : bits' ≤ planeLimit) (x y : Nat → BitVec 8) {i j : Nat} (hi : i < bits)
    (hj : j < bits') :
    popcount ((ofValues n bits count x).plane i &&& (ofValues n bits' count y).plane j) =
      ∑ channel ∈ range n, if channel < count then
        ((x channel).toNat.testBit i).toNat * ((y channel).toNat.testBit j).toNat else 0 := by
  rw [popcount_eq_sum]
  refine sum_congr rfl fun channel hchannel => ?_
  rw [BitVec.getLsbD_and, getLsbD_plane_ofValues hbits x hi, getLsbD_plane_ofValues hbits' y hj,
    decide_eq_true (mem_range.1 hchannel)]
  by_cases hcount : channel < count
  · simp only [hcount, decide_true, Bool.true_and, if_true]
    have hand : ∀ b b' : Bool, (b && b').toNat = b.toNat * b'.toNat := by decide
    exact hand _ _
  · simp [hcount]

end BitPlanes

namespace BitSerial

variable (S : BitSerial)

theorem planeCount_eq_sum (lane tap : BitPlanes S.wordBits) (k : Nat) :
    S.planeCount lane tap k =
      ∑ i ∈ Ico (k - (S.weightBits - 1)) (min k (S.activationBits - 1) + 1),
        popcount (lane.plane i &&& tap.plane (k - i)) := by
  rw [planeCount, foldl_range'_add]
  by_cases hk : k - (S.weightBits - 1) ≤ min k (S.activationBits - 1) + 1
  · rw [Nat.add_sub_cancel' hk]
  -- no pair has this weight
  · rw [Ico_eq_empty (by omega), Ico_eq_empty (by omega)]

/-- The weighted numbers of ones go through all pairs of planes. -/
theorem sum_planeCount_eq_sum_planes (hactivation : Operand.fits S.activationBits = true)
    (hweight : Operand.fits S.weightBits = true) (lane tap : BitPlanes S.wordBits) :
    ∑ k ∈ range S.weights, 2 ^ k * S.planeCount lane tap k =
      ∑ i ∈ range S.activationBits, ∑ j ∈ range S.weightBits,
        2 ^ (i + j) * popcount (lane.plane i &&& tap.plane j) := by
  rw [Operand.fits_iff] at hactivation hweight
  simp only [planeCount_eq_sum]
  exact sum_weighted_diagonals (fun i j => popcount (lane.plane i &&& tap.plane j)) hactivation.1
    hweight.1

/-- The weighted numbers of ones are the sum of the products of the low bits of the values. -/
theorem sum_planeCount (hactivation : Operand.fits S.activationBits = true)
    (hweight : Operand.fits S.weightBits = true) (count : Nat) (x y : Nat → BitVec 8) :
    ∑ k ∈ range S.weights, 2 ^ k * S.planeCount
        (BitPlanes.ofValues S.wordBits S.activationBits count x)
        (BitPlanes.ofValues S.wordBits S.weightBits count y) k =
      ∑ channel ∈ range S.wordBits, if channel < count then
        (x channel).toNat % 2 ^ S.activationBits * ((y channel).toNat % 2 ^ S.weightBits)
      else 0 := by
  rw [S.sum_planeCount_eq_sum_planes hactivation hweight]
  rw [Operand.fits_iff] at hactivation hweight
  calc ∑ i ∈ range S.activationBits, ∑ j ∈ range S.weightBits, 2 ^ (i + j) * popcount
            ((BitPlanes.ofValues S.wordBits S.activationBits count x).plane i &&&
              (BitPlanes.ofValues S.wordBits S.weightBits count y).plane j)
      = ∑ i ∈ range S.activationBits, ∑ j ∈ range S.weightBits, ∑ channel ∈ range S.wordBits,
          if channel < count then 2 ^ i * ((x channel).toNat.testBit i).toNat *
            (2 ^ j * ((y channel).toNat.testBit j).toNat) else 0 := by
        refine sum_congr rfl fun i hi => sum_congr rfl fun j hj => ?_
        rw [BitPlanes.popcount_plane_and_plane hactivation.2 hweight.2 x y (mem_range.1 hi)
          (mem_range.1 hj), mul_sum]
        refine sum_congr rfl fun channel _ => ?_
        rw [mul_ite, mul_zero, pow_add]
        refine if_congr Iff.rfl ?_ rfl
        ring
    _ = ∑ channel ∈ range S.wordBits, ∑ i ∈ range S.activationBits, ∑ j ∈ range S.weightBits,
          if channel < count then 2 ^ i * ((x channel).toNat.testBit i).toNat *
            (2 ^ j * ((y channel).toNat.testBit j).toNat) else 0 :=
        (sum_congr rfl fun i _ => sum_comm).trans sum_comm
    _ = _ := by
        refine sum_congr rfl fun channel _ => ?_
        split
        · rw [← sum_testBit, ← sum_testBit, sum_mul_sum]
        · simp

end BitSerial

end DirectConv
