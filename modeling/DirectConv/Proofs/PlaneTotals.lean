import DirectConv.Proofs.Engine.Pace
import DirectConv.Proofs.Execute
import DirectConv.Proofs.Moments
import DirectConv.Proofs.Totals
import Mathlib.Algebra.Order.BigOperators.Group.Finset
import Mathlib.Algebra.Order.BigOperators.Group.List

/-!
# How large the totals become

A total counts the ones of several pairs of planes, namely of all pairs whose bits have one weight
together. A contribution of a group adds to it at most the number of its pairs times the number of
channels in the group, and the groups of an input share its channels. So no total exceeds the number
of its pairs times the number of products of a window, at any moment of any run, and if all bits
that count are set, a total reaches this when it is stored.

To say so, the totals are kept as numbers of any size beside the words that wrap around.

## Main definitions

- `DirectConv.BitSerial.pairCount`: the number of pairs of planes of one weight
- `DirectConv.BitSerial.exact`: cells with exact totals
- `DirectConv.BitSerial.Bounded`, `DirectConv.BitSerial.Attained`: what totals are at most, and
  what they reach
- `DirectConv.BitSerial.sums`: the exact output elements

## Main statements

- `DirectConv.BitSerial.planeCount_le`, `DirectConv.BitSerial.planeCount_full`: what a contribution
  adds to a total, and what it adds if all bits are set
- `DirectConv.Request.bitSerial_totals`: the totals of all runs
-/

namespace DirectConv

open Finset Window
open Engine (TileState perform)

/-! ### Numbers of ones -/

theorem popcount_and_le {n : Nat} (a b : BitVec n) : popcount (a &&& b) ≤ popcount b := by
  rw [popcount_eq_sum, popcount_eq_sum]
  refine sum_le_sum fun i _ => ?_
  rw [BitVec.getLsbD_and]
  exact Bool.toNat_le_toNat fun h => (Bool.and_eq_true_iff.1 h).2

/-- A word whose ones all lie below `count`. -/
theorem popcount_le {n count : Nat} {a : BitVec n} (h : ∀ i, a.getLsbD i = true → i < count) :
    popcount a ≤ count := by
  rw [popcount_eq_sum]
  calc ∑ i ∈ range n, (a.getLsbD i).toNat
      ≤ ∑ i ∈ range n, if i ∈ range count then 1 else 0 := by
        refine sum_le_sum fun i _ => ?_
        cases hbit : a.getLsbD i with
        | false => exact Nat.zero_le _
        | true => rw [if_pos (mem_range.2 (h i hbit))]; exact Nat.le_refl 1
    _ ≤ count := by
        rw [sum_boole, filter_mem_eq_inter]
        exact (card_le_card inter_subset_right).trans_eq (card_range count)

theorem BitPlanes.popcount_plane_le (n bits count : Nat) (value : Nat → BitVec 8) (p : Nat) :
    popcount ((BitPlanes.ofValues n bits count value).plane p) ≤ count := by
  refine popcount_le fun channel hbit => ?_
  rw [plane, ofValues, Vector.getElem?_ofFn] at hbit
  split at hbit
  · rw [Option.getD_some] at hbit
    split at hbit
    · rw [getLsbD_wordOfBits] at hbit
      simp only [Bool.and_eq_true, decide_eq_true_eq] at hbit
      exact hbit.2.1
    · simp at hbit
  · simp at hbit

namespace BitSerial

variable (S : BitSerial)

/-- How many pairs of a plane of the activations and a plane of the weights have the weight
`2 ^ k`. -/
def pairCount (k : Nat) : Nat :=
  #{p ∈ range S.activationBits ×ˢ range S.weightBits | p.1 + p.2 = k}

/-- A plane forms no more than one pair of a weight. -/
theorem pairCount_le (k : Nat) : S.pairCount k ≤ min S.activationBits S.weightBits := by
  refine le_min ?_ ?_
  · rw [← card_range S.activationBits]
    refine card_le_card_of_injOn Prod.fst (fun p hp => ?_) fun p hp q hq h => ?_
    · exact (mem_product.1 (mem_filter.1 hp).1).1
    · have hp' := (mem_filter.1 hp).2
      have hq' := (mem_filter.1 hq).2
      exact Prod.ext h (by omega)
  · rw [← card_range S.weightBits]
    refine card_le_card_of_injOn Prod.snd (fun p hp => ?_) fun p hp q hq h => ?_
    · exact (mem_product.1 (mem_filter.1 hp).1).2
    · have hp' := (mem_filter.1 hp).2
      have hq' := (mem_filter.1 hq).2
      exact Prod.ext (by omega) h

variable {S} (hactivation : Operand.fits S.activationBits = true)
  (hweight : Operand.fits S.weightBits = true)

include hactivation hweight

theorem length_pairs (k : Nat) : (S.pairs k).length = S.pairCount k := by
  rw [Operand.fits_iff] at hactivation hweight
  rw [← List.toFinset_card_of_nodup nodup_pairs, pairCount]
  refine congrArg card (ext fun p => ?_)
  rw [List.mem_toFinset, mem_pairs hactivation.1 hweight.1, mem_filter, mem_product, mem_range,
    mem_range, and_assoc]

/-- What a contribution adds to a total. -/
theorem planeCount_le (lane tap : BitPlanes S.wordBits) {count : Nat}
    (htap : ∀ p, popcount (tap.plane p) ≤ count) (k : Nat) :
    S.planeCount lane tap k ≤ S.pairCount k * count := by
  rw [planeCount_eq_sum_pairs, ← length_pairs hactivation hweight]
  refine (List.sum_le_card_nsmul _ count fun n hn => ?_).trans_eq ?_
  · obtain ⟨p, -, rfl⟩ := List.mem_map.1 hn
    exact (popcount_and_le _ _).trans (htap p.2)
  · rw [List.length_map, smul_eq_mul]

/-- What a contribution adds to a total if all bits that count are set. -/
theorem planeCount_full {count : Nat} (hcount : count ≤ S.wordBits) {x y : Nat → BitVec 8}
    (hx : ∀ channel < count, (x channel).toNat % 2 ^ S.activationBits = 2 ^ S.activationBits - 1)
    (hy : ∀ channel < count, (y channel).toNat % 2 ^ S.weightBits = 2 ^ S.weightBits - 1)
    (k : Nat) :
    S.planeCount (BitPlanes.ofValues S.wordBits S.activationBits count x)
      (BitPlanes.ofValues S.wordBits S.weightBits count y) k = S.pairCount k * count := by
  have hset {n bits : Nat} (h : n % 2 ^ bits = 2 ^ bits - 1) {i : Nat} (hi : i < bits) :
      n.testBit i = true := by
    have hbit := congrArg (Nat.testBit · i) h
    simpa only [Nat.testBit_mod_two_pow, Nat.testBit_two_pow_sub_one, hi, decide_true,
      Bool.true_and] using hbit
  have hpair : ∀ p ∈ S.pairs k,
      popcount ((BitPlanes.ofValues S.wordBits S.activationBits count x).plane p.1 &&&
        (BitPlanes.ofValues S.wordBits S.weightBits count y).plane p.2) = count := by
    intro p hp
    have hfits := Operand.fits_iff.1 hactivation
    have hfits' := Operand.fits_iff.1 hweight
    obtain ⟨hi, hj, -⟩ := (mem_pairs hfits.1 hfits'.1).1 hp
    rw [BitPlanes.popcount_plane_and_plane hfits.2 hfits'.2 x y hi hj]
    calc ∑ channel ∈ range S.wordBits, (if channel < count then
            ((x channel).toNat.testBit p.1).toNat * ((y channel).toNat.testBit p.2).toNat else 0)
        = ∑ channel ∈ range S.wordBits, if channel < count then 1 else 0 := by
          refine sum_congr rfl fun channel _ => ite_congr rfl (fun hchannel => ?_) fun _ => rfl
          rw [hset (hx channel hchannel) hi, hset (hy channel hchannel) hj]
          rfl
      _ = count := by
          have hfilter : (range S.wordBits).filter (· < count) = range count := by
            ext channel
            simp only [mem_filter, mem_range]
            omega
          rw [← sum_filter, hfilter, sum_const, card_range, smul_eq_mul, Nat.mul_one]
  rw [planeCount_eq_sum_pairs, List.map_congr_left hpair, List.map_const', List.sum_replicate,
    length_pairs hactivation hweight, smul_eq_mul]

omit hactivation hweight

/-- The groups share the channels. -/
theorem sum_channelsIn (channels groups : Nat) :
    ((List.range groups).map (S.channelsIn channels)).sum = min (groups * S.wordBits) channels := by
  induction groups with
  | zero => simp
  | succ groups ih =>
    rw [List.range_succ, List.map_append, List.sum_append, ih, List.map_singleton,
      List.sum_singleton, channelsIn, Nat.succ_mul]
    omega

/-! ### Exact totals -/

/-- Cells whose totals do not wrap around. -/
@[reducible] def exact (S : BitSerial) : (Regime.bitSerial S).Refinement where
  Cell := Vector Nat S.weights
  vacant := Vector.replicate S.weights 0
  first lane tap := Vector.ofFn fun k => S.planeCount lane tap k
  later cell lane tap :=
    Vector.zipWith (· + ·) cell (Vector.ofFn fun k => S.planeCount lane tap k)
  endGroup _ _ _ cell := cell
  read := Vector.map (BitVec.ofNat 32)
  read_vacant := Vector.map_replicate
  read_first _ _ := Vector.map_ofFn
  read_later cell lane tap := by
    apply Vector.ext
    intro k hk
    simp [counts, BitVec.ofNat_add]
  read_endGroup _ _ _ _ := rfl

theorem get_exact_first (lane tap : BitPlanes S.wordBits) (k : Fin S.weights) :
    Vector.get (S.exact.first lane tap) k = S.planeCount lane tap k :=
  Vector.getElem_ofFn k.isLt

theorem get_exact_later (cell : S.exact.Cell) (lane tap : BitPlanes S.wordBits)
    (k : Fin S.weights) :
    Vector.get (S.exact.later cell lane tap) k = Vector.get cell k + S.planeCount lane tap k :=
  (Vector.getElem_zipWith k.isLt).trans (congrArg (_ + ·) (get_exact_first lane tap k))

end BitSerial

/-- At most `products` products are counted: no total of any accumulator exceeds the number of its
pairs of planes times `products`, and if that is a word for every total, the words a run holds are
the totals themselves. -/
structure BitSerial.Bounded (S : BitSerial) (products : Nat) {b : Blocking}
    (state : TileState S.exact.regime b) : Prop where
  total_le : ∀ slot (_ : slot < b.slots) x (k : Fin S.weights),
    Vector.get (state.engine.slots[slot].lane x) k ≤ S.pairCount k * products
  toNat_eq : min S.activationBits S.weightBits * products < 2 ^ 32 →
    ∀ slot (_ : slot < b.slots) x (k : Fin S.weights),
      BitVec.toNat (Vector.get ((S.exact.state state).engine.slots[slot].lane x) k) =
        Vector.get (state.engine.slots[slot].lane x) k

/-- Output row `row` of a tile is in progress, and each of its totals is the number of its pairs of
planes times `products`. -/
def BitSerial.Attained (S : BitSerial) (products : Nat) {b : Blocking} (tile : Tile) (row : Nat)
    (state : TileState S.exact.regime b) : Prop :=
  state.base ≤ row ∧ ∃ _ : row - state.base < b.slots, ∀ x < tile.outWidth, ∀ k : Fin S.weights,
    Vector.get (state.engine.slots[row - state.base].lane x) k = S.pairCount k * products

/-- All bits of the operands are set that count. -/
def BitSerial.AllSet (S : BitSerial) (input weights : Array (BitVec 8)) : Prop :=
  (∀ x ∈ input, x.toNat % 2 ^ S.activationBits = 2 ^ S.activationBits - 1) ∧
    ∀ x ∈ weights, x.toNat % 2 ^ S.weightBits = 2 ^ S.weightBits - 1

/-- The exact output elements: the sums of products of the bits that count. -/
def BitSerial.sums (S : BitSerial) (input weights : Array (BitVec 8)) (shape : Shape) :
    Array Nat :=
  Array.ofFn fun p : Fin shape.outputSize =>
    sumOf (fun x => x.toNat % 2 ^ S.activationBits) (fun x => x.toNat % 2 ^ S.weightBits) input
      weights shape (position shape.outHeight shape.outWidth p)

/-- A request is answered with words that stand for the numbers `sums`. -/
def Request.Answers (sums : Array Nat) (outcome : Except Fault (Outcome (BitVec 32))) : Prop :=
  ∃ buffer log, outcome = .ok ⟨buffer, none, log⟩ ∧ buffer.map BitVec.toNat = sums

/-- The taps that a regime prepares are found by group and place. -/
theorem Regime.tap_of_prepare {R : Regime} {weights : Array R.Weight} {channels : Nat}
    {filter : FilterSize} {taps : Array R.Tap} (h : R.prepare weights channels filter = .ok taps)
    {group position : Nat} (hposition : position < filter.taps) {tap : R.Tap}
    (htap : taps[group * filter.taps + position]? = some tap) :
    tap = R.tapAt weights channels filter group position := by
  rw [← Regime.eq_of_prepare h, Array.getElem?_ofFn] at htap
  split at htap
  · rw [← Option.some.inj htap, mul_add_div_of_lt hposition, mul_add_mod_of_lt hposition]
  · cases htap

section Plan

variable {S : BitSerial} {plan : Plan} (hplan : plan.Valid (.bitSerial S))

/-- What the contributions of group `g` add to total `k`. -/
def BitSerial.groupWeight (S : BitSerial) (channels k g : Nat) : Nat :=
  S.pairCount k * S.channelsIn channels g

theorem BitSerial.rowWeight_groupWeight (hword : 0 < S.wordBits) (k : Nat) :
    (plan.blocking hplan).rowWeight (S.groupWeight plan.shape.channels k) =
      S.pairCount k * (plan.shape.channels * plan.shape.side ^ 2) := by
  have hgroups : ((List.range plan.groups).map (S.groupWeight plan.shape.channels k)).sum =
      S.pairCount k * plan.shape.channels := by
    have hchannels := S.channels_le_groups_mul hword plan.shape.channels
    show ((List.range plan.groups).map fun g => S.pairCount k * S.channelsIn _ g).sum = _
    rw [List.sum_map_mul_left, sum_channelsIn, hplan.groups_eq, Nat.min_eq_right hchannels]
  rw [Blocking.rowWeight]
  show plan.filter.side * (plan.filter.side * ((List.range plan.groups).map _).sum) = _
  rw [hgroups, hplan.side_eq]
  ring

theorem BitSerial.exact_adds {bank : Array (BitVec 8)} {taps : Array (BitPlanes S.wordBits)}
    (hprepare : (Regime.bitSerial S).prepare bank plan.shape.channels plan.filter = .ok taps)
    (planes : Planes (BitVec 8)) (tile : Tile) (k : Fin S.weights) :
    Job.Adds (R := S.exact.regime) ⟨planes, taps, tile⟩ (plan.blocking hplan) (Vector.get · k)
      (S.groupWeight plan.shape.channels k) := by
  obtain ⟨hactivation, hweight⟩ := Operand.validate_eq_ok_iff.1 hplan.accepted
  have hcount {kernelRow group column : Nat} (hrow : kernelRow < plan.filter.side)
      (hcolumn : column < plan.filter.side) {tap : BitPlanes S.wordBits}
      (htap : taps[(group * plan.filter.side + kernelRow) * plan.filter.side + column]? = some tap)
      (lane : BitPlanes S.wordBits) :
      S.planeCount lane tap k ≤ S.groupWeight plan.shape.channels k group := by
    rw [Nat.add_mul, Nat.mul_assoc, Nat.add_assoc] at htap
    obtain rfl := Regime.tap_of_prepare hprepare (mul_add_lt_mul hrow hcolumn) htap
    exact planeCount_le hactivation hweight _ _ (BitPlanes.popcount_plane_le _ _ _ _) k
  refine ⟨?_, ?_, fun group cell => Nat.le_refl _⟩
  · intro kernelRow hrow group _ column hcolumn tap htap lane
    exact (get_exact_first lane tap k).trans_le (hcount hrow hcolumn htap lane)
  · intro kernelRow hrow group _ column hcolumn tap htap cell lane
    exact (get_exact_later cell lane tap k).trans_le
      (Nat.add_le_add_left (hcount hrow hcolumn htap lane) _)

/-- At every moment of every run a total is at most the number of its pairs times the number of
products of a window. -/
theorem BitSerial.exact_below (hword : 0 < S.wordBits) {output : Array (BitVec 32)}
    {input weights : Array (BitVec 8)} {moment : Plan.Moment}
    {state : TileState S.exact.regime (plan.blocking hplan)}
    (hok : plan.stateAt S.exact.regime (plan.blocking hplan) output input weights moment =
      .ok state) (k : Fin S.weights) :
    state.engine.Below (Vector.get · k) (S.groupWeight plan.shape.channels k) := by
  have hR := S.exact.sound (Regime.bitSerial_sound S hword hplan.accepted)
  refine Plan.Lasting.stateAt (fun planes _ => .below hR.idle ?_ ?_ ?_) hok
  · show 0 < plan.groups
    rw [hplan.groups_eq]
    exact S.groups_pos hword hplan.channels_pos
  · refine (Nat.le_of_eq ?_).trans (Nat.zero_le _)
    exact Vector.getElem_replicate k.isLt
  · intro bank taps hprepare tile
    exact BitSerial.exact_adds hplan hprepare planes tile k

theorem BitSerial.bounded_stateAt (hword : 0 < S.wordBits) {output : Array (BitVec 32)}
    {input weights : Array (BitVec 8)} {moment : Plan.Moment}
    {state : TileState S.exact.regime (plan.blocking hplan)}
    (hok : plan.stateAt S.exact.regime (plan.blocking hplan) output input weights moment =
      .ok state) : S.Bounded (plan.shape.channels * plan.shape.side ^ 2) state := by
  have hbound slot (hslot : slot < (plan.blocking hplan).slots) x (k : Fin S.weights) :
      Vector.get (state.engine.slots[slot].lane x) k ≤
        S.pairCount k * (plan.shape.channels * plan.shape.side ^ 2) :=
    (exact_below hplan hword hok k slot hslot x).trans_eq (rowWeight_groupWeight hplan hword k)
  refine ⟨hbound, fun hfits slot hslot x k => ?_⟩
  have hlt : Vector.get (state.engine.slots[slot].lane x) k < 2 ^ 32 :=
    ((hbound slot hslot x k).trans (Nat.mul_le_mul_right _ (S.pairCount_le k))).trans_lt hfits
  have hread : Vector.get ((S.exact.state state).engine.slots[slot].lane x) k =
      BitVec.ofNat 32 (Vector.get (state.engine.slots[slot].lane x) k) := by
    simp only [Regime.Refinement.state, Regime.Refinement.engine, Vector.getElem_map,
      Regime.Refinement.accumulator, Register.lane_relabel]
    exact Vector.getElem_map _ k.isLt
  rw [hread]
  exact Nat.mod_eq_of_lt hlt

include hplan in
/-- The cell of an output element whose operands have all bits set that count. -/
theorem BitSerial.exact_cell_full (hword : 0 < S.wordBits) {input weights : Array (BitVec 8)}
    {output : Array (BitVec 32)} (hmatch : plan.Matches input weights output)
    (hset : S.AllSet input weights) {position : Position}
    (hposition : position.Inside plan.shape) (k : Fin S.weights) :
    Vector.get ((S.exact.regime.windowTerms (plan.planes input hmatch.input_eq)
      (S.exact.regime.bankTap plan.filter plan.shape.channels weights position.filter)
        position.row position.column).cell plan.filter plan.groups) k =
      S.pairCount k * (plan.shape.channels * plan.shape.side ^ 2) := by
  obtain ⟨hactivation, hweight⟩ := Operand.validate_eq_ok_iff.1 hplan.accepted
  have hgroups : 0 < plan.groups := by
    rw [hplan.groups_eq]
    exact S.groups_pos hword hplan.channels_pos
  refine (Regime.Terms.value_cell _ (R := S.exact.regime) (Vector.get · k)
    (fun lane tap => S.planeCount lane tap k) hgroups
    (fun lane tap => get_exact_first lane tap k)
    (fun cell lane tap => get_exact_later cell lane tap k) fun _ _ => rfl).trans ?_
  have hmem {buffer : Array (BitVec 8)} {i : Nat} (hi : i < buffer.size) :
      buffer.getD i 0#8 ∈ buffer := by
    rw [Array.getD, dif_pos hi]
    exact Array.getElem_mem hi
  -- every place of the filter and every group contributes as much as it can
  have hterm : ∀ row ∈ range plan.filter.side, ∀ group ∈ range plan.groups,
      ∀ column ∈ range plan.filter.side,
        S.planeCount (S.laneAt (plan.planes input hmatch.input_eq) group (position.row + row)
          (position.column + column)) ((Regime.bitSerial S).bankTap plan.filter
            plan.shape.channels weights position.filter row group column) k =
          S.groupWeight plan.shape.channels k group := by
    intro row hrow group _ column hcolumn
    have hinside {member : Nat} (hmember : member < S.channelsIn plan.shape.channels group) :
        Term.Inside ⟨group * S.wordBits + member, row, column⟩ plan.shape := by
      have hlt : member < S.wordBits := Nat.lt_of_lt_of_le hmember (Nat.min_le_left _ _)
      exact ⟨(S.lt_channelsIn_iff hlt).1 hmember, hplan.side_eq ▸ mem_range.1 hrow,
        hplan.side_eq ▸ mem_range.1 hcolumn⟩
    refine planeCount_full hactivation hweight (Nat.min_le_left _ _) (fun member hmember => ?_)
      (fun member hmember => ?_) k
    · have hread := plan.read_planes hmatch.input_eq 0#8 position
        ⟨group * S.wordBits + member, row, column⟩
      refine (congrArg (fun x : BitVec 8 => x.toNat % 2 ^ S.activationBits) hread).trans ?_
      exact hset.1 _ (hmem (hmatch.input_eq ▸ inputIndex_lt hposition (hinside hmember)))
    · have hread : _ = weights.getD _ 0#8 :=
        Regime.getD_bank hplan 0#8 position (hinside hmember)
      refine (congrArg (fun x : BitVec 8 => x.toNat % 2 ^ S.weightBits) hread).trans ?_
      exact hset.2 _ (hmem (hmatch.weights_eq ▸ weightIndex_lt hposition (hinside hmember)))
  refine (sum_congr rfl fun row hrow => sum_congr rfl fun group hgroup =>
    sum_congr rfl fun column hcolumn => hterm row hrow group hgroup column hcolumn).trans ?_
  rw [← BitSerial.rowWeight_groupWeight hplan hword, Blocking.rowWeight, sum_const, card_range,
    smul_eq_mul]
  simp only [sum_const, card_range, smul_eq_mul, ← mul_sum]
  rfl

/-! ### Exact outputs -/

/-- A window sum of factors that are bounded. -/
theorem Window.sumOf_le {α β : Type} [Zero α] [Zero β] {f : α → Nat} {g : β → Nat} {m n : Nat}
    (hf : ∀ x, f x ≤ m) (hg : ∀ y, g y ≤ n) (input : Array α) (weights : Array β) (shape : Shape)
    (position : Position) :
    sumOf f g input weights shape position ≤ m * n * (shape.channels * shape.side ^ 2) := by
  have hterm (x : α) (y : β) : f x * g y ≤ m * n := Nat.mul_le_mul (hf x) (hg y)
  calc sumOf f g input weights shape position
      ≤ ∑ _channel ∈ range shape.channels, ∑ _row ∈ range shape.side,
          ∑ _column ∈ range shape.side, m * n :=
        sum_le_sum fun _ _ => sum_le_sum fun _ _ => sum_le_sum fun _ _ => hterm _ _
    _ = m * n * (shape.channels * shape.side ^ 2) := by
        simp only [sum_const, card_range, smul_eq_mul]
        ring

/-- Output elements are exact if the largest possible element fits a word. -/
theorem BitSerial.convolution_toNat (hword : 0 < S.wordBits) (hplan : plan.Valid (.bitSerial S))
    {input : Array (BitVec 8)} (hinput : input.size = plan.shape.inputSize)
    (weights : Array (BitVec 8))
    (hexact : (2 ^ S.activationBits - 1) * (2 ^ S.weightBits - 1) *
      (plan.shape.channels * plan.shape.side ^ 2) < 2 ^ 32) :
    ((Regime.bitSerial S).convolution plan.filter (plan.planes input hinput) weights
      plan.shape.outputs).map BitVec.toNat = S.sums input weights plan.shape := by
  have hlow (bits n : Nat) : n % 2 ^ bits ≤ 2 ^ bits - 1 :=
    Nat.le_sub_one_of_lt (Nat.mod_lt _ (Nat.two_pow_pos bits))
  rw [plan.convolution_eq hplan hinput fun position _ =>
    Regime.element_bitSerial hword hplan hinput position, Array.map_ofFn]
  refine congrArg Array.ofFn (funext fun p => ?_)
  have hsum := sumOf_le (fun x : BitVec 8 => hlow S.activationBits x.toNat)
    (fun x : BitVec 8 => hlow S.weightBits x.toNat) input weights plan.shape
      (position plan.shape.outHeight plan.shape.outWidth p)
  rw [Function.comp_apply, BitVec.toNat_ofNat, Nat.mod_eq_of_lt (hsum.trans_lt hexact)]

end Plan

/-- The totals in all runs of an accepted request. The totals of a run are those of the run with
exact totals, wrapped around one by one. At every moment an exact total is at most the number of its
pairs of planes times the number of products of a window, so that no total wraps around if there is
room for the largest of them. If all bits that count are set, every total of every row reaches the
bound when the row is stored. The output is exact as soon as the largest possible element fits a
word. -/
theorem Request.bitSerial_totals {request : Request} {ambient : VectorUnit} {plan : Plan}
    {word : ChannelWord} {activationBits weightBits : Nat}
    (haccepted : request.plan (.bitSerial ⟨word.bits, activationBits, weightBits⟩) ambient =
      .ok plan)
    (output : Array (BitVec 32)) (input weights : Array (BitVec 8)) :
    let S : BitSerial := ⟨word.bits, activationBits, weightBits⟩
    let b := plan.blocking (valid_of_plan haccepted)
    let products := request.shape.channels * request.shape.side ^ 2
    (∀ moment, plan.stateAt (.bitSerial S) b output input weights moment =
      S.exact.state <$> plan.stateAt S.exact.regime b output input weights moment) ∧
    (∀ moment state, plan.stateAt S.exact.regime b output input weights moment = .ok state →
      S.Bounded products state) ∧
    (plan.Matches input weights output →
      (plan.HasRoom (.bitSerial S) → S.AllSet input weights →
        ∀ index < request.shape.outputs, ∀ cursor i tile, plan.tiles = .ok cursor →
          cursor.toList[i]? = some tile → ∀ row < request.shape.outHeight, ∃ count state,
            (b.scheduleSteps request.shape.outHeight
              (Schedule.ofRows b.block request.shape.outHeight b.block_pos))[count]? =
                some (.store row) ∧
            plan.stateAt S.exact.regime b output input weights (.alone index i count) =
              .ok state ∧
            S.Attained products tile row state) ∧
      ((2 ^ activationBits - 1) * (2 ^ weightBits - 1) * products < 2 ^ 32 →
        (plan.HasRoom (.bitSerial S) → Answers (S.sums input weights request.shape)
          (request.execute (.bitSerial S) ambient output input weights)) ∧
        (HasRoom plan (.bitSerial S) → Answers (S.sums input weights request.shape)
          (request.compute (.bitSerial S) ambient input weights)))) := by
  have hplan := valid_of_plan haccepted
  have hR := Regime.bitSerial_sound ⟨word.bits, activationBits, weightBits⟩ word.bits_pos
    hplan.accepted
  rw [← shape_eq_of_plan haccepted]
  intro S b products
  refine ⟨fun moment => S.exact.stateAt_eq input moment,
    fun moment state hok => BitSerial.bounded_stateAt hplan word.bits_pos hok,
    fun hmatch => ⟨?attained, ?exact⟩⟩
  case attained =>
    intro hroom hset index hindex cursor i tile hcursor htile row hrow
    obtain ⟨count, state, hstep, hstate, hbase, hslot, hcells⟩ :=
      Plan.stateAt_store (R := S.exact.regime) (S.exact.sound hR) (S.exact.valid hplan)
        (S.exact.hasRoom hroom) hmatch hindex hcursor htile hrow
    refine ⟨count, state, hstep, hstate, hbase, hslot, fun x hx k => ?_⟩
    obtain ⟨hcol, hlane⟩ := hcells x hx
    have hposition : Position.Inside ⟨index, row, tile.col + x⟩ plan.shape := ⟨hindex, hrow, hcol⟩
    exact (congrArg (Vector.get · k) hlane).trans
      (BitSerial.exact_cell_full hplan word.bits_pos hmatch hset hposition k)
  case exact =>
    intro hexact
    refine ⟨fun hroom => ?_, fun hroom => ?_⟩
    · obtain ⟨log, hlog⟩ := execute_ok haccepted hR hroom hmatch
      exact ⟨_, log, hlog, BitSerial.convolution_toNat word.bits_pos hplan _ weights hexact⟩
    · obtain ⟨log, hlog⟩ := compute_ok haccepted hR hroom hmatch.input_eq hmatch.weights_eq
        hmatch.input_le hmatch.weights_le
      exact ⟨_, log, hlog, BitSerial.convolution_toNat word.bits_pos hplan _ weights hexact⟩

/-- Nine channels, of which the last one has a group of its own: two pairs of planes have the weight
two, so their total reaches eighteen. -/
theorem Request.bitSerial_totals_nine_channels :
    let b : Blocking := ⟨.one, 4, 2, 1, by decide, by decide⟩
    (∃ count, ∃ state : TileState (BitSerial.exact ⟨ChannelWord.bits8.bits, 2, 2⟩).regime b,
      Plan.stateAt _ ⟨⟨1, 1, 9, 1, 1⟩, .one, 1, 4, 2⟩ b #[0#32] (Array.replicate 9 3#8)
        (Array.replicate 9 3#8) (.alone 0 0 count) = .ok state ∧
      ∃ _ : 0 - state.base < b.slots,
        Vector.get (state.engine.slots[0 - state.base].lane 0) ⟨1, by decide⟩ = 18) ∧
    ∃ buffer log, Request.compute ⟨⟨1, 1, 9, 1, 1⟩, none, none⟩
      (.bitSerial ⟨ChannelWord.bits8.bits, 2, 2⟩) .standard
      (Array.replicate 9 3#8) (Array.replicate 9 3#8) = .ok ⟨buffer, none, log⟩ ∧
      buffer.map BitVec.toNat = #[81] := by
  intro b
  have hplan : Request.plan ⟨⟨1, 1, 9, 1, 1⟩, none, none⟩
    (.bitSerial ⟨ChannelWord.bits8.bits, 2, 2⟩) .standard =
      .ok ⟨⟨1, 1, 9, 1, 1⟩, .one, 1, 4, 2⟩ := rfl
  have hmatch : Plan.Matches ⟨⟨1, 1, 9, 1, 1⟩, .one, 1, 4, 2⟩ (Array.replicate 9 3#8)
      (Array.replicate 9 3#8) #[0#32] :=
    ⟨Array.size_replicate, Array.size_replicate, rfl, by decide, by decide, by decide⟩
  have hroom : Request.HasRoom ⟨⟨1, 1, 9, 1, 1⟩, .one, 1, 4, 2⟩
      (.bitSerial ⟨ChannelWord.bits8.bits, 2, 2⟩) :=
    ⟨⟨by decide, fun _ _ => by decide⟩, by decide⟩
  have hmax : ∀ x ∈ Array.replicate 9 3#8, x.toNat % 2 ^ 2 = 2 ^ 2 - 1 := by
    intro x hx
    obtain ⟨-, rfl⟩ := Array.mem_replicate.1 hx
    rfl
  obtain ⟨-, -, htotals⟩ := bitSerial_totals hplan #[0#32] (Array.replicate 9 3#8)
    (Array.replicate 9 3#8)
  obtain ⟨hattained, hexact⟩ := htotals hmatch
  refine ⟨?_, ?_⟩
  · obtain ⟨count, state, -, hstate, -, hslot, htotal⟩ := hattained hroom.1 ⟨hmax, hmax⟩
      0 (by decide) _ 0 ⟨0, 1, 1⟩ rfl (by rw [TileCursor.toList, if_pos (by decide)]; rfl) 0
      (by decide)
    refine ⟨count, state, hstate, hslot, ?_⟩
    exact (htotal 0 (by decide) ⟨1, by decide⟩).trans (by decide)
  · obtain ⟨-, hcompute⟩ := hexact (by decide)
    obtain ⟨buffer, log, hlog, hbuffer⟩ := hcompute hroom
    exact ⟨buffer, log, hlog, hbuffer.trans rfl⟩

end DirectConv
