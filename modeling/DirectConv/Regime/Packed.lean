import DirectConv.Element
import DirectConv.Operand
import DirectConv.Regime

/-!
# Two channels in one lane

A lane is split into a low and a high field of the same width. For a group of two channels with
activations `a₀`, `a₁` and weights `w₀`, `w₁`, the activation lane holds `a₁` in its low and `a₀`
in its high field, and the tap holds `w₀` in its low and `w₁` in its high field. With `S` the
weight of the high field, the product of both is `a₁ w₀ + S (a₀ w₀ + a₁ w₁)` modulo `S ^ 2`: the
high field gathers what the group contributes, and the low field a by-product that is discarded.

Neither field may overflow. A row of `F` products adds at most `2 F amax wmax` to the high field,
so the high field is moved into a total of its own after every `N` groups, where `N` is the largest
number of groups that cannot overflow, and once more after the last group.

## Main definitions

- `DirectConv.Packed`: field width, operand widths, and a chosen number of groups between two moves
- `DirectConv.Packed.pack`, `DirectConv.Packed.low`, `DirectConv.Packed.high`: the fields of a lane
- `DirectConv.Packed.longestRun`: the largest safe number of groups between two moves
- `DirectConv.Packed.Cell`: the fields and the total
- `DirectConv.Regime.packed`: the regime
-/

namespace DirectConv

/-- A regime with two channels in one lane. -/
structure Packed where
  /-- Bits of a field. -/
  fieldBits : Nat
  /-- Bits of an activation that count. -/
  activationBits : Nat
  /-- Bits of a weight that count. -/
  weightBits : Nat
  /-- How many groups are gathered in the fields, if the number is chosen by the caller. -/
  flushEvery : Option Nat
  deriving DecidableEq

namespace Packed

/-- A lane with two fields of `k` bits. -/
abbrev Lane (k : Nat) := BitVec (2 * k)

variable {k : Nat}

/-- The lane whose fields hold two bytes. -/
def pack (k : Nat) (low high : BitVec 8) : Lane k :=
  low.setWidth (2 * k) + high.setWidth (2 * k) <<< k

/-- The low field of a lane. -/
def low (lane : Lane k) : BitVec 32 := (lane.setWidth k).setWidth 32

/-- The high field of a lane. -/
def high (lane : Lane k) : BitVec 32 := (lane >>> k).setWidth 32

/-- The totals of one output column: two fields that gather products, and the sum of the high
fields that were moved out. -/
structure Cell (k : Nat) where
  /-- Products since the last move. -/
  fields : Lane k
  /-- The sum of the high fields up to the last move. -/
  total : BitVec 32
  deriving DecidableEq

/-- Move the high field into the total and clear both fields. -/
def Cell.flush (cell : Cell k) : Cell k := ⟨0#_, cell.total + high cell.fields⟩

variable (P : Packed)

/-- The name of the regime. -/
def name : String := s!"packed-u{2 * P.fieldBits}"

/-- How many groups the channels form: two channels each, and the last one alone if their number is
odd. -/
def groups (channels : Nat) : Nat := (channels + 1) / 2

/-- The largest number of groups that cannot overflow a field; zero if one group can. -/
def longestRun (filter : FilterSize) : Nat :=
  (BitVec.allOnes P.fieldBits).toNat /
    max 1 (2 * filter.side * Operand.largest P.activationBits * Operand.largest P.weightBits)

/-- How many groups are gathered before the high field is moved. -/
def flushInterval (filter : FilterSize) : Nat := P.flushEvery.getD (P.longestRun filter)

/-- Operands have one to eight bits, one group cannot overflow a field, and the chosen interval is
neither zero nor too long. -/
def validate (filter : FilterSize) : Except Rejection Unit := do
  Operand.validate P.activationBits P.weightBits
  let longest := P.longestRun filter
  if longest = 0 then
    throw (.fieldTooNarrow P.activationBits P.weightBits P.fieldBits filter)
  match P.flushEvery with
  | none => return ()
  | some 0 => throw .zeroFlushInterval
  | some n => if longest < n then throw (.flushTooLate n longest)

/-- The fields are moved after every `flushInterval` groups and after the last group. -/
def endGroup (filter : FilterSize) (group groups : Nat) (cell : Cell P.fieldBits) :
    Cell P.fieldBits :=
  if (group + 1) % max 1 (P.flushInterval filter) = 0 ∨ group + 1 = groups then cell.flush
  else cell

/-- The tap of a group: the weight of its first channel below that of its second, which is zero if
the channel does not exist. -/
def tapAt (weights : Array (BitVec 8)) (channels : Nat) (filter : FilterSize)
    (group position : Nat) : Lane P.fieldBits :=
  let weight (channel : Nat) := weights.getD (channel * filter.taps + position) 0#8
  pack P.fieldBits (weight (2 * group))
    (if 2 * group + 1 < channels then weight (2 * group + 1) else 0#8)

/-- The lane of a group: the activation of its second channel, which is zero if the channel does
not exist, below that of its first. -/
def laneAt (planes : Planes (BitVec 8)) (group row col : Nat) : Lane P.fieldBits :=
  pack P.fieldBits
    (if 2 * group + 1 < planes.channels then planes.read 0#8 (2 * group + 1) row col else 0#8)
    (planes.read 0#8 (2 * group) row col)

/-- Both channels of the group, as far as they exist, have the columns. -/
def covers (planes : Planes (BitVec 8)) (group row col count : Nat) : Bool :=
  planes.covers (2 * group) row col count &&
    (planes.channels ≤ 2 * group + 1 || planes.covers (2 * group + 1) row col count)

end Packed

/-- The regime `P`. A group is two channels. -/
@[reducible] def Regime.packed (P : Packed) : Regime where
  Input := BitVec 8
  Weight := BitVec 8
  Output := BitVec 32
  Lane := Packed.Lane P.fieldBits
  Tap := Packed.Lane P.fieldBits
  Cell := Packed.Cell P.fieldBits
  name := P.name
  elementBits := 2 * P.fieldBits
  footprint := ⟨4, 72, 2 * P.fieldBits / 8, 4⟩
  grouping := .one
  blockRows _ := 4
  groups := Packed.groups
  validate := P.validate
  preparation := .gathered
  tapAt := P.tapAt
  lastChannel group := 2 * group + 1
  covers := Packed.covers
  laneAt := P.laneAt
  vacantLane := 0#_
  vacantCell := .pure ⟨0#_, 0#32⟩
  vacantOutput := 0#32
  totals := .ok 1
  operable := true
  first lane tap := ⟨MacElement.mul lane tap, 0#32⟩
  later cell lane tap := { cell with fields := MacElement.mac cell.fields lane tap }
  endGroup := P.endGroup
  settled cell := cell.fields == 0#_
  result cell := cell.total

end DirectConv
