import DirectConv.Register

/-!
# Register programs

A register program is a sequence of operations on one register. It stops at the first operation
that fails, with the register as that operation left it.

## Main definitions

- `DirectConv.Register.Instruction`: one operation with its operands
- `DirectConv.Register.Instruction.apply`: carry out one operation
- `DirectConv.Register.run`: carry out operations one after the other
-/

namespace DirectConv.Register

variable {α : Type} {n : Nat}

/-- An operation on a register of elements of type `α`. -/
inductive Instruction (α : Type) : Type 1 where
  | setWidth (width : Nat)
  | load (source : Array α)
  /-- Load the images of the elements of an array. -/
  | loadMap {β : Type} (f : β → α) (source : Array β)
  /-- Load from two arrays at once. -/
  | loadZip {β γ : Type} (f : β → γ → α) (first : Array β) (second : Array γ)
  /-- Load a function of the lane's index. -/
  | loadWith (f : Nat → α)
  /-- Move the content down. -/
  | slideDown (vacant : α) (offset : Nat)
  | fill (value : α)
  | combine {β : Type} {m : Nat} (f : α → β → α) (source : Register β m)

/-- The register that an operation which checks its operands first leaves behind, and its fault. -/
def checked (r : Register α n) : Except Fault (Register α n) → Register α n × Option Fault
  | .ok r' => (r', none)
  | .error fault => (r, some fault)

/-- Carry out one operation. The result is the register it leaves behind, and its fault if it
fails. -/
def Instruction.apply (r : Register α n) : Instruction α → Register α n × Option Fault
  | setWidth width => r.checked (r.setWidth width)
  | load source => r.load source
  | loadMap f source => r.loadMap f source
  | loadZip f first second => r.loadZip f first second
  | loadWith f => (r.loadWith f, none)
  | slideDown vacant offset => (r.slideDown vacant offset, none)
  | fill value => (r.fill value, none)
  | combine f source => r.checked (r.combine f source)

/-- Carry out the operations in order, up to the first one that fails. The result is the register
that the last operation left behind, and its fault if it failed. -/
def run (r : Register α n) : List (Instruction α) → Register α n × Option Fault
  | [] => (r, none)
  | instruction :: rest =>
    match instruction.apply r with
    | (r', none) => run r' rest
    | (r', some fault) => (r', some fault)

end DirectConv.Register
