import DirectConv.Regime.BitSerial
import DirectConv.Regime.Packed
import DirectConv.Regime.SameWidth
import DirectConv.Regime.Widening

/-!
# Precisions

The regimes a request can choose from: six element types that are used for everything, three that
are widened, and the two compact regimes with two and three lane widths.

## Main definitions

- `DirectConv.Precision`: the choices
- `DirectConv.Precision.regime`: the regime of a choice
-/

namespace DirectConv

/-- The element types that can be used for input, totals and output alike. -/
inductive ElementType where
  | float32
  | float64
  | int8
  | int16
  | int32
  | int64
  deriving DecidableEq

/-- The element types whose totals are wider. -/
inductive NarrowType where
  | int8
  | int16
  | int32
  deriving DecidableEq

/-- The lanes that can be split into two fields. -/
inductive PackedLane where
  | bits16
  | bits32
  deriving DecidableEq

/-- The words whose bits can stand for channels. -/
inductive ChannelWord where
  | bits8
  | bits32
  | bits64
  deriving DecidableEq

/-- Bits of a field of the lane. -/
def PackedLane.fieldBits : PackedLane → Nat
  | bits16 => 8
  | bits32 => 16

/-- Bits of the word. -/
def ChannelWord.bits : ChannelWord → Nat
  | bits8 => 8
  | bits32 => 32
  | bits64 => 64

/-- The regime in which everything has the given type. -/
@[reducible] def ElementType.regime : ElementType → Regime
  | float32 => .sameWidth Float32 "f32"
  | float64 => .sameWidth Float "f64"
  | int8 => .sameWidth (BitVec 8) "i8"
  | int16 => .sameWidth (BitVec 16) "i16"
  | int32 => .sameWidth (BitVec 32) "i32"
  | int64 => .sameWidth (BitVec 64) "i64"

/-- The widths of the regime with inputs of the given type. -/
@[reducible] def NarrowType.widening : NarrowType → Widening
  | int8 => .byte
  | int16 => .half
  | int32 => .word

/-- A regime a request can choose. -/
inductive Precision where
  /-- One type for everything. -/
  | sameWidth (element : ElementType)
  /-- Narrow inputs and wide totals. -/
  | widening (narrow : NarrowType)
  /-- Two channels in one lane. -/
  | packed (lane : PackedLane) (activationBits weightBits : Nat) (flushEvery : Option Nat)
  /-- One channel in each bit. -/
  | bitSerial (word : ChannelWord) (activationBits weightBits : Nat)
  deriving DecidableEq

/-- The regime of the choice. -/
@[reducible] def Precision.regime : Precision → Regime
  | sameWidth element => element.regime
  | widening narrow => .widening narrow.widening
  | packed lane activationBits weightBits flushEvery =>
    .packed ⟨lane.fieldBits, activationBits, weightBits, flushEvery⟩
  | bitSerial word activationBits weightBits =>
    .bitSerial ⟨word.bits, activationBits, weightBits⟩

end DirectConv
