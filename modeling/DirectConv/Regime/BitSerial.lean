import DirectConv.Operand
import DirectConv.Regime

/-!
# One channel in each bit

A group is as many channels as a word has bits. The operands of a group are kept as bit planes:
plane `p` is a word that holds bit `p` of every channel, channel `k` of the group at bit `k`. The
contribution of a group is the sum over all planes `i` of the activations and `j` of the weights of
the number of ones in their conjunction, times `2 ^ (i + j)`. Numbers of ones are totalled apart for
each `i + j` and weighted only when the total is stored.

Bits that belong to no channel are zero, and so are planes beyond the width of the operands.

## Main definitions

- `DirectConv.BitPlanes`: the bit planes of a group
- `DirectConv.BitPlanes.ofValues`: the planes of the values of the channels
- `DirectConv.BitSerial`: word width and operand widths
- `DirectConv.BitSerial.planeCount`: the number of ones that have the weight `2 ^ k`
- `DirectConv.BitSerial.totals`: how many totals a cell has
- `DirectConv.Regime.bitSerial`: the regime
-/

namespace DirectConv

/-- The word of `n` bits whose bit `i` is `bits i`. -/
def wordOfBits (bits : Nat → Bool) : (n : Nat) → BitVec n
  | 0 => 0#0
  | n + 1 => BitVec.cons (bits n) (wordOfBits bits n)

theorem getLsbD_wordOfBits (bits : Nat → Bool) (n i : Nat) :
    (wordOfBits bits n).getLsbD i = (decide (i < n) && bits i) := by
  induction n with
  | zero => simp
  | succ n ih =>
    rw [wordOfBits, BitVec.getLsbD_cons, ih]
    by_cases h : i = n
    · simp [h]
    · by_cases h' : i < n
      · simp [h, h', Nat.lt_succ_of_lt h']
      · have : ¬ i < n + 1 := by omega
        simp [h, h', this]

/-- The number of ones among the low `n` bits of a number. -/
def onesBelow : (n : Nat) → Nat → Nat
  | 0, _ => 0
  | n + 1, x => if x = 0 then 0 else x % 2 + onesBelow n (x / 2)

/-- The number of ones of a word. -/
def popcount {n : Nat} (word : BitVec n) : Nat := onesBelow n word.toNat

/-- The most planes an operand can have. -/
@[reducible] def planeLimit : Nat := 8

/-- The planes of a group of `n` channels. -/
abbrev BitPlanes (n : Nat) := Vector (BitVec n) planeLimit

namespace BitPlanes

variable {n : Nat}

/-- No channel has a bit set. -/
def zero (n : Nat) : BitPlanes n := Vector.replicate planeLimit 0#n

/-- Plane `p`, or zero if there is no such plane. -/
def plane (planes : BitPlanes n) (p : Nat) : BitVec n := planes[p]?.getD 0#n

/-- The planes of the low `bits` bits of the values `value k` of the channels `k` below `count`. -/
def ofValues (n bits count : Nat) (value : Nat → BitVec 8) : BitPlanes n :=
  Vector.ofFn fun p =>
    if p.val < bits then wordOfBits (fun k => decide (k < count) && (value k).getLsbD p.val) n
    else 0#n

end BitPlanes

/-- A regime with one channel in each bit of a word. -/
structure BitSerial where
  /-- Bits of a word, which is the number of channels of a group. -/
  wordBits : Nat
  /-- Bits of an activation that count. -/
  activationBits : Nat
  /-- Bits of a weight that count. -/
  weightBits : Nat
  deriving DecidableEq

namespace BitSerial

variable (S : BitSerial)

/-- The name of the regime. -/
def name : String := s!"bitserial-u{S.wordBits}"

/-- How many groups the channels form; the last one can be incomplete. -/
def groups (channels : Nat) : Nat := (channels + (S.wordBits - 1)) / S.wordBits

/-- How many of the channels belong to group `group`. -/
def channelsIn (channels group : Nat) : Nat :=
  min S.wordBits (channels - group * S.wordBits)

/-- How many different weights `2 ^ (i + j)` products of planes have. -/
@[reducible] def weights : Nat := S.activationBits + S.weightBits - 1

/-- How many totals a cell has, one for each of the weights. Operands without any bit have no number
of weights, and the operand widths are added as words of 32 bits. -/
def totals : Except Fault Nat :=
  let bits := S.activationBits + S.weightBits
  if 0 < bits ∧ bits < 4294967296 then .ok S.weights else .error .sizeOverflow

/-- The number of ones that a lane and a tap contribute with the weight `2 ^ k`. -/
def planeCount (lane tap : BitPlanes S.wordBits) (k : Nat) : Nat :=
  let least := k - (S.weightBits - 1)
  let greatest := min k (S.activationBits - 1)
  (List.range' least (greatest + 1 - least)).foldl
    (fun count i => count + popcount (lane.plane i &&& tap.plane (k - i))) 0

/-- The totals of one output column, one for each weight. -/
abbrev Cell := Vector (BitVec 32) S.weights

/-- The numbers of ones a lane and a tap contribute. -/
def counts (lane tap : BitPlanes S.wordBits) : S.Cell :=
  Vector.ofFn fun k => BitVec.ofNat 32 (S.planeCount lane tap k.val)

/-- The weighted sum of the totals. -/
def weigh (cell : S.Cell) : BitVec 32 :=
  cell.toList.zipIdx.foldl (fun sum (n, k) => sum + n <<< k) 0#32

/-- The tap of a group. Weights that are missing count as zero. -/
def tapAt (weights : Array (BitVec 8)) (channels : Nat) (filter : FilterSize)
    (group position : Nat) : BitPlanes S.wordBits :=
  BitPlanes.ofValues S.wordBits S.weightBits (S.channelsIn channels group) fun k =>
    weights.getD ((group * S.wordBits + k) * filter.taps + position) 0#8

/-- The lane of a group. -/
def laneAt (planes : Planes (BitVec 8)) (group row col : Nat) : BitPlanes S.wordBits :=
  BitPlanes.ofValues S.wordBits S.activationBits (S.channelsIn planes.channels group) fun k =>
    planes.read 0#8 (group * S.wordBits + k) row col

/-- All channels of the group have the columns. A load of no lane reads nothing. -/
def covers (planes : Planes (BitVec 8)) (group row col count : Nat) : Bool :=
  count == 0 || (List.range (S.channelsIn planes.channels group)).all fun k =>
    planes.covers (group * S.wordBits + k) row col count

end BitSerial

/-- The regime `S`. A group is as many channels as a word has bits. -/
@[reducible] def Regime.bitSerial (S : BitSerial) : Regime where
  Input := BitVec 8
  Weight := BitVec 8
  Output := BitVec 32
  Lane := BitPlanes S.wordBits
  Tap := BitPlanes S.wordBits
  Cell := S.Cell
  name := S.name
  elementBits := S.wordBits
  footprint := ⟨planeLimit * (S.wordBits / 8), 24, planeLimit * (S.wordBits / 8), 4⟩
  grouping := .standard
  blockRows _ := 4
  groups := S.groups
  validate _ := Operand.validate S.activationBits S.weightBits
  preparation := .filled
  tapAt := S.tapAt
  lastChannel group := group * S.wordBits + S.wordBits
  covers := S.covers
  laneAt := S.laneAt
  vacantLane := BitPlanes.zero S.wordBits
  vacantCell := .mk fun _ => Vector.replicate S.weights 0#32
  vacantOutput := 0#32
  totals := S.totals
  operable := Operand.fits S.activationBits && Operand.fits S.weightBits
  first := S.counts
  later cell lane tap := Vector.zipWith (· + ·) cell (S.counts lane tap)
  endGroup _ _ _ cell := cell
  settled _ := S.weights ≤ 32
  result := S.weigh

end DirectConv
