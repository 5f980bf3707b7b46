import DirectConv.Fault

/-!
# Memory

A buffer takes as many bytes as its items take together. The distance between two bytes of a buffer
is a signed machine word, so no buffer has more bytes than such a word can count. Room means no more
than that: smaller buffers are taken to be there.

## Main definitions

- `DirectConv.Memory.limit`: the most bytes a buffer can take
- `DirectConv.Memory.reserve`: make room for a number of items
-/

namespace DirectConv.Memory

/-- The most bytes a buffer can take, which is one less than the 63rd power of two. -/
def limit : Nat := 9223372036854775807

/-- Make room for `count` items of `bytes` bytes each. -/
def reserve (count bytes : Nat) : Except Fault Unit :=
  require (count * bytes ≤ limit) .memoryExhausted

@[simp] theorem reserve_eq_ok_iff {count bytes : Nat} {u : Unit} :
    reserve count bytes = .ok u ↔ count * bytes ≤ limit := by
  simp [reserve]

theorem reserve_eq_error {count bytes : Nat} (h : ¬ count * bytes ≤ limit) :
    reserve count bytes = .error .memoryExhausted := by
  rw [reserve, require, decide_eq_false h]
  rfl

/-- Items there is room for are no more than the bytes there are, if each takes a byte or more. -/
theorem le_limit_of_room {count bytes : Nat} (hbytes : 0 < bytes) (h : count * bytes ≤ limit) :
    count ≤ limit :=
  Nat.le_trans (Nat.le_mul_of_pos_right count hbytes) h

end DirectConv.Memory
