import DirectConv.Proofs.BitSerial
import DirectConv.Proofs.Packed
import DirectConv.Proofs.SameWidth
import DirectConv.Proofs.Widening

/-!
# Sound precisions

Of the regimes a request can choose, three have no operands they could not multiply. Only the
bit-serial one depends on the numbers of bits it was given, and its validation looks at nothing
else. So a precision is sound as soon as its lanes and taps can be multiplied, and the validation of
a request establishes this.

## Main statements

- `DirectConv.Precision.sound_of_operable`, `DirectConv.Precision.sound`: which precisions are sound
- `DirectConv.Precision.subsingleton_of_idle`: cells without totals hold nothing
-/

namespace DirectConv

namespace Precision

/-- Every element has at least one bit, so no number of lanes is a quotient by zero. -/
theorem elementBits_pos (precision : Precision) : 0 < precision.regime.elementBits := by
  cases precision with
  | sameWidth element => cases element <;> decide
  | widening narrow => cases narrow <;> decide
  | packed lane activationBits weightBits flushEvery =>
    have hfield := lane.two_le_fieldBits
    show 0 < 2 * lane.fieldBits
    omega
  | bitSerial word activationBits weightBits => exact word.bits_pos

/-- No element has more than 64 bits. -/
theorem elementBits_le (precision : Precision) : precision.regime.elementBits ≤ 64 := by
  cases precision with
  | sameWidth element => cases element <;> decide
  | widening narrow => cases narrow <;> decide
  | packed lane activationBits weightBits flushEvery =>
    show 2 * lane.fieldBits ≤ 64
    cases lane <;> decide
  | bitSerial word activationBits weightBits =>
    show word.bits ≤ 64
    cases word <;> decide

/-- Every channel belongs to a group. -/
theorem groups_pos (precision : Precision) {channels : Nat} (h : 0 < channels) :
    0 < precision.regime.groups channels := by
  cases precision with
  | sameWidth element => cases element <;> exact h
  | widening narrow => exact h
  | packed lane activationBits weightBits flushEvery =>
    show 0 < (channels + 1) / 2
    omega
  | bitSerial word activationBits weightBits => exact BitSerial.groups_pos _ word.bits_pos h

theorem sound_of_operable (precision : Precision) (filter : FilterSize)
    (h : precision.regime.operable = true) : precision.regime.Sound filter := by
  cases precision with
  | sameWidth element => cases element <;> exact Regime.sameWidth_sound _ filter (by decide)
  | widening narrow => exact Regime.widening_sound narrow filter
  | packed lane activationBits weightBits flushEvery =>
    exact Regime.packed_sound _ lane.two_le_fieldBits filter
  | bitSerial word activationBits weightBits =>
    apply Regime.bitSerial_sound _ word.bits_pos
    exact Operand.validate_eq_ok_iff.2 ((Bool.and_eq_true _ _).mp h)

/-- A precision that is accepted for a filter size is sound for it. -/
theorem sound (precision : Precision) {filter : FilterSize}
    (h : precision.regime.validate filter = .ok ()) : precision.regime.Sound filter := by
  apply precision.sound_of_operable
  cases precision with
  | sameWidth element => cases element <;> rfl
  | widening narrow => rfl
  | packed lane activationBits weightBits flushEvery => rfl
  | bitSerial word activationBits weightBits =>
    exact (Bool.and_eq_true _ _).mpr (Operand.validate_eq_ok_iff.1 h)

/-- Cells without totals are all alike, and nothing keeps them from being stored. -/
theorem subsingleton_of_idle (precision : Precision) (h : precision.regime.idle = true) :
    Subsingleton precision.regime.Cell ∧ ∀ cell, precision.regime.settled cell = true := by
  cases precision with
  | sameWidth element => cases element <;> cases h
  | widening narrow => cases h
  | packed => cases h
  | bitSerial word activationBits weightBits =>
    have hweights : BitSerial.weights ⟨word.bits, activationBits, weightBits⟩ = 0 := by
      rw [Regime.idle] at h
      split at h
      · rename_i htotals
        change BitSerial.totals _ = .ok 0 at htotals
        rw [BitSerial.totals] at htotals
        split at htotals
        · exact Except.ok.inj htotals
        · cases htotals
      · cases h
    refine ⟨⟨fun cell cell' => Vector.ext fun k hk => ?_⟩, fun cell => ?_⟩
    · exact absurd hk (by rw [hweights]; exact Nat.not_lt_zero k)
    · exact decide_eq_true (by rw [hweights]; exact Nat.zero_le 32)

end Precision

end DirectConv
