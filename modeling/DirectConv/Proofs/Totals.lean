import DirectConv.Proofs.BitSerial

/-!
# Totals of ones

An accumulator can be given any sequence of registers and taps, not only those an engine would give
it. Whatever it held before, its totals are those of the sequence. For bit planes a total is a
number of ones modulo `2 ^ 32`, over all steps of the sequence and over the pairs of planes of one
weight. It wraps around before it is weighted, so only its residue is followed.

## Main definitions

- `DirectConv.Contribution`: a register and the tap it is multiplied with
- `DirectConv.Accumulator.gather`: one contribution after the other
- `DirectConv.BitSerial.pairs`: the pairs of planes that are counted in one total

## Main statements

- `DirectConv.Accumulator.gather_ok`: what the lanes hold after a sequence of contributions
- `DirectConv.BitSerial.count_pairs`: every pair of planes that count belongs to one total
- `DirectConv.BitSerial.store_gather`: the weighted sum of ones that is stored
-/

namespace DirectConv

open Finset

/-- A register and the tap it is multiplied with. -/
structure Contribution (R : Regime) where
  /-- Lanes of the register, active or not. -/
  lanes : Nat
  register : Register R.Lane lanes
  tap : R.Tap

section Gather

variable {R : Regime} {filter : FilterSize} {n : Nat}

/-- The cell of lane `x` after further contributions. -/
def Contribution.addTo (x : Nat) (cell : R.Cell) (rest : List (Contribution R)) : R.Cell :=
  rest.foldl (fun cell next => R.later cell (next.register.lane x) next.tap) cell

/-- The cell of lane `x` after a first contribution and further ones. -/
def Contribution.cell (first : Contribution R) (rest : List (Contribution R)) (x : Nat) : R.Cell :=
  addTo x (R.first (first.register.lane x) first.tap) rest

namespace Accumulator

/-- Add one contribution after the other to the totals. -/
def addAll (acc : Accumulator R n) (rest : List (Contribution R)) :
    Except Fault (Accumulator R n) :=
  rest.foldlM (fun acc next => acc.later next.register next.tap) acc

/-- Replace the totals by a first contribution, and add further ones. -/
def gather (acc : Accumulator R n) (first : Contribution R) (rest : List (Contribution R)) :
    Except Fault (Accumulator R n) := do
  let acc ← acc.first first.register first.tap
  acc.addAll rest

theorem addAll_ok (hR : R.Sound filter) (acc : Accumulator R n) {rest : List (Contribution R)}
    (hwide : ∀ next ∈ rest, acc.width ≤ next.register.width) :
    ∃ acc', acc.addAll rest = .ok acc' ∧ acc'.width = acc.width ∧
      ∀ x < acc.width, acc'.lane x = Contribution.addTo x (acc.lane x) rest := by
  induction rest generalizing acc with
  | nil => exact ⟨acc, rfl, rfl, fun _ _ => rfl⟩
  | cons next rest ih =>
    have hstep := contribute_ok hR (hwide next List.mem_cons_self)
      fun cell lane => R.later cell lane next.tap
    obtain ⟨acc', hacc', hwidth, hlane⟩ := ih (Register.tabulate acc fun x _ =>
        R.later (acc.lane x) (next.register.lane x) next.tap)
      fun next' hnext' => hwide next' (List.mem_cons_of_mem _ hnext')
    refine ⟨acc', ?_, hwidth, fun x hx => ?_⟩
    · rw [addAll, List.foldlM_cons]
      exact (bind_of_eq_ok hstep _).trans hacc'
    · rw [hlane x hx, Register.lane_tabulate_of_lt _ _ hx]
      rfl

/-- After a sequence of contributions every active lane holds their cell. What the accumulator held
before does not matter. -/
theorem gather_ok (hR : R.Sound filter) {acc : Accumulator R n} {first : Contribution R}
    {rest : List (Contribution R)}
    (hwide : ∀ next ∈ first :: rest, acc.width ≤ next.register.width) :
    ∃ acc', acc.gather first rest = .ok acc' ∧ acc'.width = acc.width ∧
      ∀ x < acc.width, acc'.lane x = first.cell rest x := by
  have hstep := contribute_ok hR (hwide first List.mem_cons_self)
    fun _ lane => R.first lane first.tap
  obtain ⟨acc', hacc', hwidth, hlane⟩ := addAll_ok hR (Register.tabulate acc fun x _ =>
      R.first (first.register.lane x) first.tap)
    fun next hnext => hwide next (List.mem_cons_of_mem _ hnext)
  refine ⟨acc', (bind_of_eq_ok hstep _).trans hacc', hwidth, fun x hx => ?_⟩
  rw [hlane x hx, Register.lane_tabulate_of_lt _ _ hx]
  rfl

end Accumulator

end Gather

namespace BitSerial

/-- The pairs of planes that are counted in total `k`, in the order in which they are counted. -/
def pairs (S : BitSerial) (k : Nat) : List (Nat × Nat) :=
  (List.range' (k - (S.weightBits - 1))
      (min k (S.activationBits - 1) + 1 - (k - (S.weightBits - 1)))).map fun i => (i, k - i)

variable {S : BitSerial}

theorem planeCount_eq_sum_pairs (lane tap : BitPlanes S.wordBits) (k : Nat) :
    S.planeCount lane tap k =
      ((S.pairs k).map fun p => popcount (lane.plane p.1 &&& tap.plane p.2)).sum := by
  rw [planeCount, pairs, List.map_map, List.sum_eq_foldl, List.foldl_map]
  rfl

theorem mem_pairs (hactivation : 0 < S.activationBits) (hweight : 0 < S.weightBits)
    {i j k : Nat} :
    (i, j) ∈ S.pairs k ↔ i < S.activationBits ∧ j < S.weightBits ∧ i + j = k := by
  simp only [pairs, List.mem_map, List.mem_range'_1, Prod.mk.injEq]
  constructor
  · rintro ⟨_, hi, rfl, rfl⟩
    omega
  · rintro ⟨hi, hj, rfl⟩
    exact ⟨i, by omega, rfl, by omega⟩

theorem nodup_pairs {k : Nat} : (S.pairs k).Nodup :=
  List.Nodup.map (fun _ _ h => congrArg Prod.fst h) List.nodup_range'

/-- A pair of planes is counted once, in the total of its weight, if both planes count, and not at
all otherwise. -/
theorem count_pairs (hactivation : 0 < S.activationBits) (hweight : 0 < S.weightBits)
    (i j k : Nat) :
    (S.pairs k).count (i, j) =
      if i < S.activationBits ∧ j < S.weightBits ∧ i + j = k then 1 else 0 := by
  rw [nodup_pairs.count]
  exact if_congr (mem_pairs hactivation hweight) rfl rfl

/-- The ones that plane `i` of lane `x` of the register and plane `j` of the tap have in common. -/
def ones (step : Contribution (.bitSerial S)) (x i j : Nat) : Nat :=
  popcount ((step.register.lane x).plane i &&& step.tap.plane j)

/-- The number of ones that total `k` of lane `x` counts over all steps. -/
def onesOf (steps : List (Contribution (.bitSerial S))) (x k : Nat) : Nat :=
  (steps.map fun step => ((S.pairs k).map fun p => ones step x p.1 p.2).sum).sum

/-- The number of ones in lane `x` over all steps and all pairs of planes that count, each of them
with its weight. -/
def weightedOnes (steps : List (Contribution (.bitSerial S))) (x : Nat) : Nat :=
  (steps.map fun step => ∑ i ∈ range S.activationBits, ∑ j ∈ range S.weightBits,
    ones step x i j * 2 ^ (i + j)).sum

variable (first : Contribution (.bitSerial S)) (rest : List (Contribution (.bitSerial S))) (x : Nat)

/-- What can be added up over totals can be added up over contributions. -/
theorem map_cell {f : S.Cell → BitVec 32} {g : Contribution (.bitSerial S) → Nat}
    (hadd : ∀ cell cell', f (Vector.zipWith (· + ·) cell cell') = f cell + f cell')
    (hcounts : ∀ step : Contribution (.bitSerial S),
      f (S.counts (step.register.lane x) step.tap) = BitVec.ofNat 32 (g step)) :
    f (first.cell rest x) = BitVec.ofNat 32 (((first :: rest).map g).sum) := by
  -- the last contribution is the one that is added to a finished cell
  induction rest using List.reverseRecOn with
  | nil => exact (hcounts first).trans (congrArg (BitVec.ofNat 32) (Nat.add_zero _).symm)
  | append_singleton rest next ih =>
    have hcell : first.cell (rest ++ [next]) x = Vector.zipWith (· + ·) (first.cell rest x)
        (S.counts (next.register.lane x) next.tap) := by
      simp only [Contribution.cell, Contribution.addTo, List.foldl_append]
      rfl
    rw [hcell, hadd, ih, hcounts, ← List.cons_append, List.map_append, List.sum_append,
      List.map_singleton, List.sum_singleton, BitVec.ofNat_add]

/-- A total is a number of ones. -/
theorem get_cell (k : Fin S.weights) :
    Vector.get (first.cell rest x) k = BitVec.ofNat 32 (onesOf (first :: rest) x k) := by
  refine map_cell first rest x (f := fun cell => cell.get k) (fun cell cell' => ?_) fun step => ?_
  · exact Vector.getElem_zipWith k.isLt
  · refine (Vector.getElem_ofFn k.isLt).trans ?_
    rw [planeCount_eq_sum_pairs]
    rfl

/-- What is stored for a cell is a weighted number of ones. -/
theorem weigh_cell (hactivation : Operand.fits S.activationBits = true)
    (hweight : Operand.fits S.weightBits = true) :
    S.weigh (first.cell rest x) = BitVec.ofNat 32 (weightedOnes (first :: rest) x) := by
  refine map_cell first rest x S.weigh_zipWith fun step => ?_
  rw [weigh_counts_eq_sum, S.sum_planeCount_eq_sum_planes hactivation hweight]
  simp only [Nat.mul_comm (2 ^ _)]
  rfl

/-- A sequence of contributions to an accumulator that may hold anything stores the weighted number
of ones of each active lane, wrapped around once. What stands in planes that do not count does not
matter, and no other element of the buffer changes. There is one total for each weight, and every
pair of planes is counted in just one of them. -/
theorem store_gather (hword : 0 < S.wordBits) (hactivation : Operand.fits S.activationBits = true)
    (hweight : Operand.fits S.weightBits = true) {n : Nat} (acc : Accumulator (.bitSerial S) n)
    (hwide : ∀ step ∈ first :: rest, acc.width ≤ step.register.width)
    (buffer : Array (BitVec 32)) (start count : Nat) (hend : start + count ≤ buffer.size)
    (hcount : acc.width ≤ count) :
    (∃ acc' buffer', acc.gather first rest = .ok acc' ∧
      acc'.store buffer start count = .ok buffer' ∧ buffer'.size = buffer.size ∧
      (∀ x < acc.width,
        buffer'[start + x]? = some (BitVec.ofNat 32 (weightedOnes (first :: rest) x))) ∧
      (∀ i, i < start ∨ start + acc.width ≤ i → buffer'[i]? = buffer[i]?) ∧
      ∀ x < acc.width, ∀ k : Fin S.weights,
        Vector.get (acc'.lane x) k = BitVec.ofNat 32 (onesOf (first :: rest) x k)) ∧
    S.totals = .ok (S.activationBits + S.weightBits - 1) ∧
    ∀ i j k, (S.pairs k).count (i, j) =
      if i < S.activationBits ∧ j < S.weightBits ∧ i + j = k then 1 else 0 := by
  have hR : (Regime.bitSerial S).Sound .one :=
    Regime.bitSerial_sound S hword (Operand.validate_eq_ok_iff.2 ⟨hactivation, hweight⟩)
  have hactivationBits := Operand.fits_iff.1 hactivation
  have hweightBits := Operand.fits_iff.1 hweight
  refine ⟨?_, if_pos (by omega), count_pairs hactivationBits.1 hweightBits.1⟩
  obtain ⟨acc', hgather, hwidth, hlane⟩ := Accumulator.gather_ok hR hwide
  obtain ⟨buffer', hstore, hsize, hget⟩ := Accumulator.store_getElem? hR buffer start hend
    (hwidth.symm ▸ hcount) fun x _ => decide_eq_true (by rw [weights]; omega)
  refine ⟨acc', buffer', hgather, hstore, hsize, fun x hx => ?_, fun i hi => ?_, fun x hx k => ?_⟩
  · rw [hget, hwidth, if_pos (by omega), Nat.add_sub_cancel_left, hlane x hx]
    exact congrArg some (weigh_cell first rest x hactivation hweight)
  · rw [hget, hwidth, if_neg (by omega)]
  · rw [hlane x hx, get_cell]

/-- An accumulator is used again without being cleared. Planes that do not count are all ones. -/
theorem store_gather_again :
    ∃ acc' buffer', Accumulator.gather (R := .bitSerial ⟨8, 1, 2⟩) (n := 2)
        ⟨#[#v[7#32, 7#32]], #v[9#32, 9#32], 1, by decide⟩
        ⟨1, ⟨#[], #v[5#8, 255#8, 255#8, 0#8, 0#8, 0#8, 0#8, 0#8], 1, by decide⟩,
          #v[4#8, 7#8, 255#8, 0#8, 0#8, 0#8, 0#8, 0#8]⟩
        [⟨2, ⟨#[], #v[255#8, 0#8, 0#8, 0#8, 0#8, 0#8, 0#8, 0#8], 2, by decide⟩,
          #v[1#8, 3#8, 0#8, 0#8, 0#8, 0#8, 0#8, 0#8]⟩] = .ok acc' ∧
      acc'.store #[1#32, 2#32, 3#32] 1 2 = .ok buffer' ∧ buffer'[1]? = some 10#32 ∧
      buffer'[2]? = some 3#32 := by
  obtain ⟨⟨acc', buffer', hgather, hstore, -, hget, hkept, -⟩, -⟩ :=
    store_gather (S := ⟨8, 1, 2⟩)
      ⟨1, ⟨#[], #v[5#8, 255#8, 255#8, 0#8, 0#8, 0#8, 0#8, 0#8], 1, by decide⟩,
        #v[4#8, 7#8, 255#8, 0#8, 0#8, 0#8, 0#8, 0#8]⟩
      [⟨2, ⟨#[], #v[255#8, 0#8, 0#8, 0#8, 0#8, 0#8, 0#8, 0#8], 2, by decide⟩,
        #v[1#8, 3#8, 0#8, 0#8, 0#8, 0#8, 0#8, 0#8]⟩] (by decide) (by decide) (by decide)
      (n := 2) ⟨#[#v[7#32, 7#32]], #v[9#32, 9#32], 1, by decide⟩ (by simp)
      #[1#32, 2#32, 3#32] 1 2 (by decide) (by decide)
  exact ⟨acc', buffer', hgather, hstore, (hget 0 (by decide)).trans rfl, hkept 2 (by simp)⟩

end BitSerial

end DirectConv
