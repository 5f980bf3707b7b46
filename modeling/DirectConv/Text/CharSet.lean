/-!
# Sets of characters

A set of characters is kept as the increasing list of code points at which membership changes,
starting outside the set. A character belongs to the set if an odd number of changes lies at or
before it.

## Main definitions

- `DirectConv.Text.CharSet`: a set of characters
- `DirectConv.Text.CharSet.contains`: membership
-/

namespace DirectConv.Text

/-- A set of characters, given by the code points at which membership changes. -/
structure CharSet where
  /-- The code points at which membership changes, in increasing order. -/
  switches : Array Nat

namespace CharSet

/-- Whether the character belongs to the set. -/
def contains (set : CharSet) (c : Char) : Bool :=
  set.switches.countP (· ≤ c.toNat) % 2 == 1

/-- A set without changes is empty. -/
@[simp] theorem contains_empty (c : Char) : contains ⟨#[]⟩ c = false := rfl

end CharSet

end DirectConv.Text
