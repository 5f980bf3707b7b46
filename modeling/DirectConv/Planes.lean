import DirectConv.Buffer
import DirectConv.Size

/-!
# Input planes

The input holds one plane for each channel, one after the other, and each plane holds its rows one
after the other. A row is found by its position in the whole buffer: only the end of the buffer
limits it, so row `height` of a channel is row `0` of the next one.

## Main definitions

- `DirectConv.Planes`: a buffer and the dimensions of its planes
- `DirectConv.Planes.rowStart`: where a row begins
- `DirectConv.Planes.row`: the elements of a row
- `DirectConv.Planes.covers`: whether a stretch of a row can be read
- `DirectConv.Planes.read`: one element
-/

namespace DirectConv

/-- A buffer that holds `channels` planes of `height` rows and `width` columns. -/
structure Planes (α : Type) where
  /-- All elements: planes, rows and columns in this order. -/
  data : Array α
  channels : Nat
  height : Nat
  width : Nat
  /-- The buffer holds the planes and nothing else. -/
  size_eq : data.size = channels * height * width

namespace Planes

variable {α : Type}

/-- View a buffer of the right length as planes. The length is a size, and so are the products it is
computed by. -/
def ofArray (data : Array α) (channels height width : Nat) : Except Fault (Planes α) := do
  discard <| Size.product [channels, height, width]
  if h : data.size = channels * height * width then
    return ⟨data, channels, height, width, h⟩
  else throw .brokenPrecondition

/-- The position of the first element of row `row` of channel `channel`. -/
def rowStart (planes : Planes α) (channel row : Nat) : Nat :=
  (channel * planes.height + row) * planes.width

/-- Whether the row lies inside the buffer. -/
def hasRow (planes : Planes α) (channel row : Nat) : Bool :=
  planes.rowStart channel row + planes.width ≤ planes.data.size

/-- The elements of a row. -/
def row (planes : Planes α) (channel row : Nat) : Except Fault (Array α) :=
  Buffer.slice planes.data (planes.rowStart channel row) planes.width

/-- Whether the row lies inside the buffer and has `count` columns from column `col` on. -/
def covers (planes : Planes α) (channel row col count : Nat) : Bool :=
  planes.hasRow channel row && col + count ≤ planes.width

/-- The element in column `col` of a row, or `vacant` beyond the end of the buffer. -/
def read (planes : Planes α) (vacant : α) (channel row col : Nat) : α :=
  planes.data.getD (planes.rowStart channel row + col) vacant

theorem ofArray_eq_ok {data : Array α} {channels height width n : Nat}
    (hsize : Size.product [channels, height, width] = .ok n)
    (h : data.size = channels * height * width) :
    ofArray data channels height width = .ok ⟨data, channels, height, width, h⟩ := by
  rw [ofArray, hsize]
  exact dif_pos h

/-- Every row of every channel lies inside the buffer. -/
theorem hasRow_of_lt (planes : Planes α) {channel row : Nat} (hc : channel < planes.channels)
    (hr : row < planes.height) : planes.hasRow channel row = true := by
  have hrows : channel * planes.height + row + 1 ≤ planes.channels * planes.height :=
    calc channel * planes.height + row + 1
        ≤ channel * planes.height + planes.height := by omega
      _ = (channel + 1) * planes.height := (Nat.succ_mul _ _).symm
      _ ≤ planes.channels * planes.height := Nat.mul_le_mul_right _ hc
  have hsize := Nat.mul_le_mul_right planes.width hrows
  rw [hasRow, decide_eq_true_eq, rowStart, planes.size_eq, ← Nat.succ_mul]
  exact hsize

theorem covers_of_lt (planes : Planes α) {channel row col count : Nat}
    (hc : channel < planes.channels) (hr : row < planes.height)
    (hcols : col + count ≤ planes.width) : planes.covers channel row col count = true := by
  rw [covers, planes.hasRow_of_lt hc hr, Bool.true_and, decide_eq_true_eq]
  exact hcols

end Planes

end DirectConv
