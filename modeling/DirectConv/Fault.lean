/-!
# Faults

A fault marks a step that has no answer: an index outside its buffer, a size no machine word can
hold, a buffer no memory can hold, a division by zero, or a call whose precondition does not hold.
Requests that are refused for a reason the caller is told about are not faults; those are
`Rejection`s.

Sizes are computed with overflow checks and preconditions are asserted, as in a build for debugging.
A build without these checks does not stop at a `Fault.sizeOverflow`: it goes on with a size that
has wrapped around. Nor need it stop at a `Fault.brokenPrecondition`.

## Main definitions

- `DirectConv.Fault`: what went wrong
- `DirectConv.require`: continue only if a condition holds

## Main statements

- `DirectConv.bind_eq_ok_iff`, `DirectConv.bind_eq_error_iff`: when a computation of two parts
  succeeds, and when it fails
- `DirectConv.discard_eq_ok_iff`, `DirectConv.discard_eq_error_iff`: the same for a computation
  whose result is not used
-/

namespace DirectConv

/-- The ways in which a step can have no answer. -/
inductive Fault where
  /-- An index or a slice leaves the buffer it reads or writes. -/
  | outOfRange
  /-- A size does not fit a machine word, and overflow is checked for. -/
  | sizeOverflow
  /-- A buffer takes more bytes than can be addressed. -/
  | memoryExhausted
  /-- A quotient has the divisor zero. -/
  | divisionByZero
  /-- A condition every caller must establish does not hold. -/
  | brokenPrecondition
  deriving DecidableEq

/-- Continue if `condition` holds and fail with `fault` otherwise. -/
def require (condition : Bool) (fault : Fault) : Except Fault Unit :=
  if condition then .ok () else .error fault

@[simp] theorem require_eq_ok_iff {condition : Bool} {fault : Fault} {u : Unit} :
    require condition fault = .ok u ↔ condition = true := by
  cases condition <;> simp [require]

section Bind

variable {ε α β : Type} {x : Except ε α} {f : α → Except ε β}

/-- A computation succeeds if and only if both of its parts do. -/
theorem bind_eq_ok_iff {b : β} : (x >>= f) = .ok b ↔ ∃ a, x = .ok a ∧ f a = .ok b := by
  cases x <;> simp [bind, Except.bind]

/-- A computation fails if and only if one of its parts does. -/
theorem bind_eq_error_iff {e : ε} :
    (x >>= f) = .error e ↔ x = .error e ∨ ∃ a, x = .ok a ∧ f a = .error e := by
  cases x <;> simp [bind, Except.bind]

end Bind

section Discard

variable {ε α β : Type} {x : Except ε α}

theorem discard_bind (x : Except ε α) (f : α → Except ε β) :
    discard (x >>= f) = x >>= fun a => discard (f a) := by
  cases x <;> rfl

theorem discard_eq_ok_iff {u : Unit} : discard x = .ok u ↔ ∃ a, x = .ok a := by
  cases x <;> simp [discard, Functor.mapConst, Except.map]

theorem discard_eq_error_iff {e : ε} : discard x = .error e ↔ x = .error e := by
  cases x <;> simp [discard, Functor.mapConst, Except.map]

end Discard

end DirectConv
