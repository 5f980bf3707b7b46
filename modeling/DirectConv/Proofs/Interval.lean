import DirectConv.Proofs.Packed
import Mathlib.Algebra.Order.BigOperators.Group.List
import Mathlib.Data.List.TFAE

/-!
# The interval between two moves

The high field can be moved late as long as it holds the exact sum of what was gathered. Whether it
does is a question about all runs of operands. The answer is a division: the run of the largest
operands adds the most to both fields, and the field holds less than its width allows. So a run is
safe for all operands if and only if it is no longer than the longest run, in a field that was
cleared as well as in one whose content the first product replaces, and the validation accepts
exactly the safe intervals.

## Main definitions

- `DirectConv.Packed.Factors`: the operands of one contribution
- `DirectConv.Packed.gather`, `DirectConv.Packed.gatherAnew`: the cell after a run of contributions
- `DirectConv.Packed.IsRun`, `DirectConv.Packed.Safe`: the runs of a regime, and whether all of them
  leave their sum in the high field

## Main statements

- `DirectConv.Packed.fields_gather`: the fields after a run, whatever its length is
- `DirectConv.Packed.longestRun_tight`: the safe intervals are those up to the longest run
-/

namespace DirectConv

namespace Operand

theorem largest_pos {bits : Nat} (h : fits bits = true) : 0 < largest bits := by
  rw [fits_iff] at h
  have hpow : 2 ^ 1 ≤ 2 ^ min bits 8 := Nat.pow_le_pow_right Nat.two_pos (by omega)
  rw [largest, BitVec.toNat_allOnes]
  omega

/-- The largest operand is a byte. -/
theorem toNat_largest (bits : Nat) : (BitVec.ofNat 8 (largest bits)).toNat = largest bits := by
  rw [BitVec.toNat_ofNat, Nat.mod_eq_of_lt (largest_lt bits)]

end Operand

namespace Packed

/-- The operands of one contribution: the activations and the weights of the two channels. -/
structure Factors where
  x₀ : BitVec 8
  x₁ : BitVec 8
  w₀ : BitVec 8
  w₁ : BitVec 8

namespace Factors

variable (f : Factors) (k : Nat)

def lane : Lane k := pack k f.x₁ f.x₀

def tap : Lane k := pack k f.w₀ f.w₁

/-- What the contribution adds to the high field. -/
def dot : Nat := f.x₀.toNat * f.w₀.toNat + f.x₁.toNat * f.w₁.toNat

/-- What it adds to the low field. -/
def byProduct : Nat := f.x₁.toNat * f.w₀.toNat

/-- The activations are at most `a` and the weights at most `w`. -/
structure UpTo (a w : Nat) : Prop where
  x₀_le : f.x₀.toNat ≤ a
  x₁_le : f.x₁.toNat ≤ a
  w₀_le : f.w₀.toNat ≤ w
  w₁_le : f.w₁.toNat ≤ w

variable {f} {a w : Nat}

theorem UpTo.byProduct_le (h : f.UpTo a w) : f.byProduct ≤ a * w :=
  Nat.mul_le_mul h.x₁_le h.w₀_le

theorem UpTo.dot_le (h : f.UpTo a w) : f.dot ≤ 2 * (a * w) := by
  rw [two_mul]
  exact Nat.add_le_add (Nat.mul_le_mul h.x₀_le h.w₀_le) (Nat.mul_le_mul h.x₁_le h.w₁_le)

end Factors

variable (P : Packed)

/-- Gather a run of contributions in a cell. -/
def gather (cell : Cell P.fieldBits) (run : List Factors) : Cell P.fieldBits :=
  run.foldl (fun cell f =>
    (Regime.packed P).later cell (f.lane P.fieldBits) (f.tap P.fieldBits)) cell

/-- Gather a run of contributions of which the first one replaces what the cell held. -/
def gatherAnew : List Factors → Cell P.fieldBits
  | [] => (Regime.packed P).vacantCell.get
  | f :: rest =>
    P.gather ((Regime.packed P).first (f.lane P.fieldBits) (f.tap P.fieldBits)) rest

/-- A run of `count` contributions of operands that have no more bits than they may. -/
structure IsRun (count : Nat) (run : List Factors) : Prop where
  length_eq : run.length = count
  upTo : ∀ f ∈ run, f.UpTo (Operand.largest P.activationBits) (Operand.largest P.weightBits)

/-- Every run of `count` contributions leaves its exact sum in the high field. -/
def Safe (gathered : List Factors → Cell P.fieldBits) (count : Nat) : Prop :=
  ∀ run, P.IsRun count run → (high (gathered run).fields).toNat = (run.map Factors.dot).sum

/-- Both fields hold the exact sums of a run. -/
structure Exact {k : Nat} (run : List Factors) (fields : Lane k) : Prop where
  high_eq : (high fields).toNat = (run.map Factors.dot).sum
  low_eq : (low fields).toNat = (run.map Factors.byProduct).sum
  low_lt : (run.map Factors.byProduct).sum < 2 ^ k

section Fields

variable {P}

/-- Whether or not the fields overflow, they hold the sums of the run modulo their width. -/
theorem fields_gather {cell : Cell P.fieldBits} {low high : Nat}
    (h : cell.fields = BitVec.ofNat (2 * P.fieldBits) (low + 2 ^ P.fieldBits * high))
    (run : List Factors) :
    (P.gather cell run).fields = BitVec.ofNat (2 * P.fieldBits)
      (low + (run.map Factors.byProduct).sum +
        2 ^ P.fieldBits * (high + (run.map Factors.dot).sum)) := by
  induction run generalizing cell low high with
  | nil => simpa [gather] using h
  | cons f rest ih =>
    have hstep : ((Regime.packed P).later cell (f.lane P.fieldBits) (f.tap P.fieldBits)).fields =
        BitVec.ofNat (2 * P.fieldBits)
          (low + f.byProduct + 2 ^ P.fieldBits * (high + f.dot)) := by
      change cell.fields + f.lane P.fieldBits * f.tap P.fieldBits = _
      rw [h]
      exact add_pack_mul_pack low high f.x₀ f.x₁ f.w₀ f.w₁
    rw [List.map_cons, List.sum_cons, List.map_cons, List.sum_cons, ← Nat.add_assoc,
      ← Nat.add_assoc]
    exact ih hstep

theorem fields_gather_clear (total : BitVec 32) (run : List Factors) :
    (P.gather ⟨0#_, total⟩ run).fields = BitVec.ofNat (2 * P.fieldBits)
      ((run.map Factors.byProduct).sum + 2 ^ P.fieldBits * (run.map Factors.dot).sum) := by
  have h := @fields_gather P ⟨0#_, total⟩ 0 0 rfl run
  rwa [Nat.zero_add, Nat.zero_add] at h

/-- The first product may as well be added to clear fields. -/
theorem fields_gatherAnew (run : List Factors) :
    (P.gatherAnew run).fields = BitVec.ofNat (2 * P.fieldBits)
      ((run.map Factors.byProduct).sum + 2 ^ P.fieldBits * (run.map Factors.dot).sum) := by
  rw [← fields_gather_clear 0#32]
  cases run with
  | nil => rfl
  | cons f rest =>
    have hfirst : (Regime.packed P).first (f.lane P.fieldBits) (f.tap P.fieldBits) =
        (Regime.packed P).later ⟨0#_, 0#32⟩ (f.lane P.fieldBits) (f.tap P.fieldBits) := by
      simp
    rw [gatherAnew, hfirst]
    rfl

/-- Sums that the fields have room for are read off them unchanged. -/
theorem exact_of_fields {k : Nat} (hk : k ≤ 32) {run : List Factors} {fields : Lane k}
    (h : fields = BitVec.ofNat (2 * k)
      ((run.map Factors.byProduct).sum + 2 ^ k * (run.map Factors.dot).sum))
    (hlow : (run.map Factors.byProduct).sum < 2 ^ k) (hhigh : (run.map Factors.dot).sum < 2 ^ k) :
    Exact run fields := by
  have hword : 2 ^ k ≤ 2 ^ 32 := Nat.pow_le_pow_right Nat.two_pos hk
  refine ⟨?_, ?_, hlow⟩
  · rw [Packed.high_eq h hlow hhigh, BitVec.toNat_ofNat, Nat.mod_eq_of_lt (hhigh.trans_le hword)]
  · rw [low, BitVec.toNat_setWidth, BitVec.toNat_setWidth, h, toNat_fields hlow hhigh,
      Nat.add_mul_mod_self_left, Nat.mod_eq_of_lt hlow, Nat.mod_eq_of_lt (hlow.trans_le hword)]

/-- The high field shows less than its width allows, whatever the fields are. -/
theorem high_lt {k : Nat} (fields : Lane k) : (high fields).toNat < 2 ^ k := by
  have hshift : (fields >>> k).toNat < 2 ^ k := by
    rw [BitVec.toNat_ushiftRight, Nat.shiftRight_eq_div_pow]
    refine Nat.div_lt_of_lt_mul ?_
    rw [← pow_add, ← two_mul]
    exact fields.isLt
  rw [high, BitVec.toNat_setWidth]
  exact Nat.lt_of_le_of_lt (Nat.mod_le _ _) hshift

end Fields

section Runs

variable {P} {count : Nat} {run : List Factors}

/-- Sums over a run are bounded by what its operands can add at most. -/
theorem IsRun.sum_le (h : P.IsRun count run) {g : Factors → Nat} {bound : Nat}
    (hg : ∀ f : Factors,
      f.UpTo (Operand.largest P.activationBits) (Operand.largest P.weightBits) → g f ≤ bound) :
    (run.map g).sum ≤ count * bound := by
  rw [← h.length_eq, ← List.length_map g, ← smul_eq_mul]
  refine List.sum_le_card_nsmul _ _ ?_
  intro n hn
  obtain ⟨f, hf, rfl⟩ := List.mem_map.1 hn
  exact hg f (h.upTo f hf)

/-- A run that is short enough leaves exact sums, however its first product is stored. -/
theorem IsRun.exact (h : P.IsRun count run) (hfield : P.fieldBits ≤ 32)
    (hcount : count * (2 * (Operand.largest P.activationBits * Operand.largest P.weightBits)) <
      2 ^ P.fieldBits) :
    (∀ total, Exact run (P.gather ⟨0#_, total⟩ run).fields) ∧
      Exact run (P.gatherAnew run).fields := by
  have hhigh : (run.map Factors.dot).sum < 2 ^ P.fieldBits :=
    (h.sum_le fun _ hf => hf.dot_le).trans_lt hcount
  have hlow : (run.map Factors.byProduct).sum < 2 ^ P.fieldBits := by
    refine (h.sum_le fun _ hf => ?_).trans_lt hcount
    exact hf.byProduct_le.trans (Nat.le_mul_of_pos_left _ Nat.two_pos)
  constructor
  · intro total
    exact exact_of_fields hfield (fields_gather_clear total run) hlow hhigh
  · exact exact_of_fields hfield (fields_gatherAnew run) hlow hhigh

variable (P)

/-- The largest operands of the regime. -/
def largestFactors : Factors where
  x₀ := BitVec.ofNat 8 (Operand.largest P.activationBits)
  x₁ := BitVec.ofNat 8 (Operand.largest P.activationBits)
  w₀ := BitVec.ofNat 8 (Operand.largest P.weightBits)
  w₁ := BitVec.ofNat 8 (Operand.largest P.weightBits)

theorem isRun_largest (count : Nat) : P.IsRun count (List.replicate count P.largestFactors) := by
  refine ⟨List.length_replicate, ?_⟩
  intro f hf
  obtain rfl := List.eq_of_mem_replicate hf
  have hactivation := Nat.le_of_eq (Operand.toNat_largest P.activationBits)
  have hweight := Nat.le_of_eq (Operand.toNat_largest P.weightBits)
  exact ⟨hactivation, hactivation, hweight, hweight⟩

theorem dot_largestFactors : P.largestFactors.dot =
    2 * (Operand.largest P.activationBits * Operand.largest P.weightBits) := by
  rw [Factors.dot, largestFactors, Operand.toNat_largest, Operand.toNat_largest, two_mul]

/-- The run of the largest operands fills the high field beyond its width as soon as any run can. -/
theorem Safe.mul_lt {P : Packed} {gathered : List Factors → Cell P.fieldBits}
    (h : P.Safe gathered count) :
    count * (2 * (Operand.largest P.activationBits * Operand.largest P.weightBits)) <
      2 ^ P.fieldBits := by
  have hsum := h _ (P.isRun_largest count)
  rw [List.map_replicate, List.sum_replicate, smul_eq_mul, dot_largestFactors] at hsum
  rw [← hsum]
  exact high_lt _

end Runs

section Bound

variable {P}

/-- The longest run is the largest number of groups for which the bound of the high field stays
below its width. -/
theorem le_longestRun_iff (hactivation : Operand.fits P.activationBits = true)
    (hweight : Operand.fits P.weightBits = true) {filter : FilterSize} {n : Nat} :
    n ≤ P.longestRun filter ↔ n * filter.side *
      (2 * (Operand.largest P.activationBits * Operand.largest P.weightBits)) <
        2 ^ P.fieldBits := by
  have hgroup : 0 < 2 * filter.side * Operand.largest P.activationBits *
      Operand.largest P.weightBits := by
    have hside := filter.side_pos
    have hx := Operand.largest_pos hactivation
    have hw := Operand.largest_pos hweight
    positivity
  have hwidth := Nat.two_pow_pos P.fieldBits
  rw [longestRun, Nat.max_eq_right hgroup, Nat.le_div_iff_mul_le hgroup, BitVec.toNat_allOnes,
    Nat.le_sub_one_iff_lt hwidth]
  ring_nf

/-- A number of groups can be gathered for all operands, in clear fields as well as from a first
product on, if and only if it is at most the longest run. Then neither field overflows on the way.
So the chosen intervals that are accepted are exactly the safe ones. -/
theorem longestRun_tight (hfield : P.fieldBits ≤ 32)
    (hactivation : Operand.fits P.activationBits = true)
    (hweight : Operand.fits P.weightBits = true) (filter : FilterSize) (n : Nat) :
    [n ≤ P.longestRun filter,
      ∀ total, P.Safe (P.gather ⟨0#_, total⟩) (n * filter.side),
      P.Safe P.gatherAnew (n * filter.side)].TFAE ∧
    (n ≤ P.longestRun filter → ∀ count ≤ n * filter.side, ∀ run, P.IsRun count run →
      (∀ total, Exact run (P.gather ⟨0#_, total⟩ run).fields) ∧
        Exact run (P.gatherAnew run).fields) ∧
    (0 < n → ({ P with flushEvery := some n }.validate filter = .ok () ↔
      P.Safe P.gatherAnew (n * filter.side))) := by
  have hexact : n ≤ P.longestRun filter → ∀ count ≤ n * filter.side, ∀ run, P.IsRun count run →
      (∀ total, Exact run (P.gather ⟨0#_, total⟩ run).fields) ∧
        Exact run (P.gatherAnew run).fields := by
    intro hn count hcount run hrun
    have hlt := (le_longestRun_iff hactivation hweight).1 hn
    exact hrun.exact hfield (Nat.lt_of_le_of_lt (Nat.mul_le_mul_right _ hcount) hlt)
  have hsafe : [n ≤ P.longestRun filter,
      ∀ total, P.Safe (P.gather ⟨0#_, total⟩) (n * filter.side),
      P.Safe P.gatherAnew (n * filter.side)].TFAE := by
    tfae_have 1 → 2 := fun hn total run hrun => ((hexact hn _ le_rfl run hrun).1 total).high_eq
    tfae_have 1 → 3 := fun hn run hrun => (hexact hn _ le_rfl run hrun).2.high_eq
    tfae_have 2 → 1 := fun h => (le_longestRun_iff hactivation hweight).2 (h 0#32).mul_lt
    tfae_have 3 → 1 := fun h => (le_longestRun_iff hactivation hweight).2 h.mul_lt
    tfae_finish
  refine ⟨hsafe, hexact, ?_⟩
  intro hpos
  have hlongest : n ≤ P.longestRun filter ↔ P.Safe P.gatherAnew (n * filter.side) := hsafe.out 0 2
  rw [← hlongest, validate_eq_ok_iff]
  constructor
  · rintro ⟨-, -, hchosen⟩
    exact (hchosen n rfl).2
  · intro hn
    refine ⟨⟨hactivation, hweight⟩, hpos.trans_le hn, ?_⟩
    rintro m ⟨⟩
    exact ⟨hpos, hn⟩

/-- In fields of eight bits, four groups of operands of two bits are safe for filters of three rows,
and five are not, so an interval of five groups is not accepted. -/
theorem longestRun_tight_two_bits :
    Safe ⟨8, 2, 2, none⟩ (gatherAnew ⟨8, 2, 2, none⟩) 12 ∧
      ¬ Safe ⟨8, 2, 2, none⟩ (gatherAnew ⟨8, 2, 2, none⟩) 15 ∧
      validate ⟨8, 2, 2, some 4⟩ .three = .ok () ∧ validate ⟨8, 2, 2, some 5⟩ .three ≠ .ok () := by
  obtain ⟨hfour, -, haccepted⟩ := @longestRun_tight ⟨8, 2, 2, none⟩ (by decide) rfl rfl .three 4
  obtain ⟨hfive, -, hrejected⟩ := @longestRun_tight ⟨8, 2, 2, none⟩ (by decide) rfl rfl .three 5
  have hsafe := (hfour.out 0 2).1 (by decide)
  have hunsafe : ¬ Safe ⟨8, 2, 2, none⟩ (gatherAnew ⟨8, 2, 2, none⟩) 15 := fun h =>
    absurd ((hfive.out 2 0).1 h) (by decide)
  exact ⟨hsafe, hunsafe, (haccepted (by decide)).2 hsafe,
    fun h => hunsafe ((hrejected (by decide)).1 h)⟩

end Bound

end Packed

end DirectConv
