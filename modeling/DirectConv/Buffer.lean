import DirectConv.Memory

/-!
# Buffers

Making buffers, and reading and writing consecutive elements of a buffer.

## Main definitions

- `DirectConv.Buffer.replicate`: a buffer of equal elements
- `DirectConv.Buffer.collect`: a buffer of computed elements
- `DirectConv.Buffer.slice`: the elements of a stretch
- `DirectConv.Buffer.overwrite`: replace the elements of a stretch

## Main statements

- `DirectConv.Buffer.collect_eq_ok_iff`: every element is the one computed from its index
- `DirectConv.Buffer.getElem?_overwrite`: what a buffer holds after a stretch has been replaced
-/

namespace DirectConv.Buffer

variable {α : Type}

/-- A buffer of `count` elements of `bytes` bytes each, all of them equal to `value`. -/
def replicate (bytes count : Nat) (value : α) : Except Fault (Array α) := do
  Memory.reserve count bytes
  return Array.replicate count value

/-- Append the images of the `count` numbers that follow `start`, up to the first fault. -/
def collectFrom (f : Nat → Except Fault α) : (count start : Nat) → Array α →
    Except Fault (Array α)
  | 0, _, done => .ok done
  | count + 1, start, done => do
    let x ← f start
    collectFrom f count (start + 1) (done.push x)

/-- The images of the numbers below `count`. The first fault ends the computation, so a count that
no buffer could have is no obstacle where an early element does not exist. -/
def collect (count : Nat) (f : Nat → Except Fault α) : Except Fault (Array α) :=
  collectFrom f count 0 #[]

/-- The `count` elements of the buffer that follow position `start`. -/
def slice (buffer : Array α) (start count : Nat) : Except Fault (Array α) :=
  if start + count ≤ buffer.size then .ok (buffer.extract start (start + count))
  else .error .outOfRange

/-- Write `values` into the buffer from position `start` on. -/
def overwrite (buffer : Array α) (start : Nat) : List α → Array α
  | [] => buffer
  | value :: rest => overwrite (buffer.setIfInBounds start value) (start + 1) rest

theorem collectFrom_eq_ok_iff {f : Nat → Except Fault α} {count start : Nat}
    {done xs : Array α} :
    collectFrom f count start done = .ok xs ↔
      ∃ ys : Array α, xs = done ++ ys ∧ ys.size = count ∧
        ∀ i (h : i < ys.size), f (start + i) = .ok ys[i] := by
  induction count generalizing start done with
  | zero =>
    constructor
    · intro h
      exact ⟨#[], by rw [Array.append_empty, Except.ok.inj h], rfl, fun i hi => absurd hi (by simp)⟩
    · rintro ⟨ys, rfl, hsize, -⟩
      rw [Array.eq_empty_of_size_eq_zero hsize, Array.append_empty]
      rfl
  | succ count ih =>
    rw [collectFrom, bind_eq_ok_iff]
    constructor
    · rintro ⟨x, hx, hrest⟩
      obtain ⟨ys, rfl, hsize, hys⟩ := ih.1 hrest
      refine ⟨#[x] ++ ys, by rw [Array.push_eq_append, Array.append_assoc], ?_, fun i hi => ?_⟩
      · rw [Array.size_append, hsize, Nat.add_comm]
        rfl
      · cases i with
        | zero => simpa using hx
        | succ i =>
          have hi' : i < ys.size := by simp at hi; omega
          have := hys i hi'
          rw [show start + (i + 1) = start + 1 + i by omega, this]
          simp
    · rintro ⟨ys, rfl, hsize, hys⟩
      have hpos : 0 < ys.size := by omega
      refine ⟨ys[0], hys 0 hpos, ih.2 ⟨ys.extract 1 ys.size, ?_, by simp [hsize], fun i hi => ?_⟩⟩
      · apply Array.ext'
        cases h : ys.toList with
        | nil => simp [Array.toList_eq_nil_iff.1 h] at hpos
        | cons y rest =>
          have hrest : rest.length ≤ ys.size - 1 := by
            rw [← Array.length_toList, h, List.length_cons]
            omega
          simp [← Array.getElem_toList, h, List.take_of_length_le hrest]
      · have hi' : 1 + i < ys.size := by simp at hi; omega
        rw [show start + 1 + i = start + (1 + i) by omega, hys _ hi']
        simp

/-- Collecting succeeds exactly if every element exists, and collects just these. -/
theorem collect_eq_ok_iff {f : Nat → Except Fault α} {count : Nat} {xs : Array α} :
    collect count f = .ok xs ↔ xs.size = count ∧ ∀ i (h : i < xs.size), f i = .ok xs[i] := by
  rw [collect, collectFrom_eq_ok_iff]
  constructor
  · rintro ⟨ys, rfl, hsize, hys⟩
    exact ⟨by simp [hsize], fun i hi => by simpa using hys i (by simpa using hi)⟩
  · rintro ⟨hsize, hxs⟩
    exact ⟨xs, by simp, hsize, fun i hi => by simpa using hxs i hi⟩

theorem slice_eq_ok_iff {buffer stretch : Array α} {start count : Nat} :
    slice buffer start count = .ok stretch ↔
      start + count ≤ buffer.size ∧ buffer.extract start (start + count) = stretch := by
  unfold slice
  split
  · rename_i h
    simp [h]
  · rename_i h
    simp only [reduceCtorEq, h, false_and]

theorem size_overwrite (buffer : Array α) (start : Nat) (values : List α) :
    (overwrite buffer start values).size = buffer.size := by
  induction values generalizing buffer start with
  | nil => rfl
  | cons value rest ih => rw [overwrite, ih, Array.size_setIfInBounds]

/-- The values stand where they were written, and all else is kept. -/
theorem getElem?_overwrite (buffer : Array α) (start : Nat) (values : List α)
    (h : start + values.length ≤ buffer.size) (i : Nat) :
    (overwrite buffer start values)[i]? =
      if start ≤ i ∧ i < start + values.length then values[i - start]? else buffer[i]? := by
  induction values generalizing buffer start with
  | nil =>
    rw [overwrite, List.length_nil, if_neg (by omega)]
  | cons value rest ih =>
    rw [List.length_cons] at h
    rw [overwrite, ih _ _ (by rw [Array.size_setIfInBounds]; omega), List.length_cons]
    by_cases hi : i = start
    · subst hi
      rw [if_neg (by omega), if_pos (by omega), Array.getElem?_setIfInBounds_self_of_lt (by omega)]
      simp
    · by_cases hin : start ≤ i ∧ i < start + (rest.length + 1)
      · rw [if_pos (by omega), if_pos hin, show i - start = i - (start + 1) + 1 by omega,
          List.getElem?_cons_succ]
      · rw [if_neg (by omega), if_neg hin,
          Array.getElem?_setIfInBounds_ne (fun h => hi h.symm)]

end DirectConv.Buffer
