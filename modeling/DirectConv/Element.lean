/-!
# Elements

Elements are what a convolution multiplies and accumulates. Floating-point elements round after
the product and again after the sum; words wrap around, which gives signed and unsigned integers
the same arithmetic. No law is asked of the two operations, so what is proved for all elements
holds for floating-point ones.

## Main definitions

- `DirectConv.MacElement`: multiplication, and multiplication with accumulation
- `DirectConv.MacElement.bits`: the width of an element
-/

namespace DirectConv

/-- A type of a fixed width with a zero, a product, and a product that is added to a total. -/
class MacElement (α : Type) where
  /-- How many bytes an element takes. -/
  bytes : Nat
  /-- The empty total. -/
  zero : α
  mul : α → α → α
  /-- A total with the product of two elements added to it. -/
  mac : α → α → α → α

instance : MacElement Float32 where
  bytes := 4
  zero := 0
  mul a b := a * b
  mac acc a b := acc + a * b

instance : MacElement Float where
  bytes := 8
  zero := 0
  mul a b := a * b
  mac acc a b := acc + a * b

/-- Words of any width compute modulo a power of two, and take whole bytes. -/
instance (w : Nat) : MacElement (BitVec w) where
  bytes := (w + 7) / 8
  zero := 0#w
  mul a b := a * b
  mac acc a b := acc + a * b

namespace MacElement

/-- How many bits the bytes of an element have. -/
def bits (α : Type) [MacElement α] : Nat := 8 * bytes α

variable {w : Nat}

@[simp] theorem zero_word : (zero : BitVec w) = 0#w := rfl

@[simp] theorem mul_word (a b : BitVec w) : mul a b = a * b := rfl

@[simp] theorem mac_word (acc a b : BitVec w) : mac acc a b = acc + a * b := rfl

end MacElement

end DirectConv
