import DirectConv.Fault

/-!
# Machine sizes

Lengths and offsets are natural numbers below `2 ^ 64`. The functions here compute with exact
natural numbers and fail as soon as an intermediate result does not fit, so a size that is returned
is always the exact one. This is arithmetic with overflow checks, as a build for debugging has it. A
build without them reduces such a result modulo `2 ^ 64` and goes on; `sizeOverflow` marks where.

## Main definitions

- `DirectConv.Size.bound`: the first number that is not a size
- `DirectConv.Size.check`: accept a number that is a size
- `DirectConv.Size.product`, `DirectConv.Size.windowStarts`: checked arithmetic
- `DirectConv.Size.saturate`: the nearest size

## Main statements

- `DirectConv.Size.eq_foldl_of_product`, `DirectConv.Size.windowStarts_eq_ok_iff`: results are exact
-/

namespace DirectConv.Size

/-- The first number that does not fit a machine word, which is the 64th power of two. -/
def bound : Nat := 18446744073709551616

/-- The number itself if it is a size, and an overflow otherwise. -/
def check (n : Nat) : Except Fault Nat :=
  if n < bound then .ok n else .error .sizeOverflow

/-- The nearest size: numbers from `bound` on become the largest size. -/
def saturate (n : Nat) : Nat := min n (bound - 1)

/-- The product of `factors`, taken from left to right, where every partial product is a size. -/
def product (factors : List Nat) : Except Fault Nat :=
  factors.foldlM (fun acc factor => check (acc * factor)) 1

/-- The number of positions at which a window of `window` elements fits into `extent` elements. -/
def windowStarts (extent window : Nat) : Except Fault Nat := do
  let past ← check (extent + 1)
  if window ≤ past then .ok (past - window) else .error .sizeOverflow

theorem check_of_lt {n : Nat} (h : n < bound) : check n = .ok n := if_pos h

theorem check_of_not_lt {n : Nat} (h : ¬ n < bound) : check n = .error .sizeOverflow := if_neg h

theorem check_eq_ok_iff {n m : Nat} : check n = .ok m ↔ n < bound ∧ n = m := by
  unfold check
  split
  · simp_all
  · simp only [reduceCtorEq, false_iff]
    exact fun h => absurd h.1 ‹_›

/-- A checked product is the exact product. -/
theorem eq_foldl_of_product {factors : List Nat} {n : Nat} (h : product factors = .ok n) :
    factors.foldl (· * ·) 1 = n := by
  unfold product at h
  generalize 1 = acc at h ⊢
  induction factors generalizing acc with
  | nil => exact Except.ok.inj h
  | cons factor rest ih =>
    rw [List.foldlM_cons] at h
    cases hc : check (acc * factor) with
    | error fault => rw [hc] at h; exact absurd h nofun
    | ok m =>
      rw [hc] at h
      rw [List.foldl_cons, (check_eq_ok_iff.1 hc).2]
      exact ih m h

theorem windowStarts_eq_ok_iff {extent window n : Nat} :
    windowStarts extent window = .ok n ↔
      extent + 1 < bound ∧ window ≤ extent + 1 ∧ extent + 1 - window = n := by
  unfold windowStarts check
  by_cases h : extent + 1 < bound
  · by_cases h' : window ≤ extent + 1 <;> simp [h, h', bind, Except.bind]
  · simp [h, bind, Except.bind]

end DirectConv.Size
