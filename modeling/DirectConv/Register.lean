import DirectConv.Buffer

/-!
# Vector registers

A register has a fixed number of lanes, of which the first `width` are active. Every operation
changes active lanes only, so a lane outside the active width keeps what it holds until the width
grows again.

## Main definitions

- `DirectConv.Register`: the lanes and the active width
- `DirectConv.Register.lane`: what a lane holds
- `DirectConv.Register.tabulate`: set every active lane by its index
- `DirectConv.Register.setWidth`, `DirectConv.Register.load`, `DirectConv.Register.slideDown`,
  `DirectConv.Register.fill`, `DirectConv.Register.combine`: the operations
- `DirectConv.Register.active`: the active lanes

## Main statements

- `DirectConv.Register.lane_tabulate`: what a lane holds after an operation; all operations but a
  change of width are tabulations
- `DirectConv.Register.load_of_le`, `DirectConv.Register.load_short`: what a load does, and what it
  leaves if its source is too short
- `DirectConv.Register.slideDown_eq`: a slide as one tabulation

## Design notes

All lanes of a new register hold the same element. That element is kept once, and beside it the
lanes that have been set since, so the cost of a register depends on the lanes in use and not on
the lanes there are. What a register holds is only ever looked at through `lane`.
-/

namespace DirectConv

/-- A vector register of `n` lanes. -/
structure Register (α : Type) (n : Nat) where
  /-- What the lanes hold, from the first lane to the last one that has been set. -/
  stored : Array α
  /-- What all further lanes hold. -/
  rest : α
  /-- How many lanes are active. -/
  width : Nat
  /-- Only lanes of the register are active. -/
  width_le : width ≤ n

namespace Register

variable {α β γ : Type} {n m : Nat}

/-- A register with all lanes active and the same element in each. -/
def replicate (n : Nat) (value : α) : Register α n where
  stored := #[]
  rest := value
  width := n
  width_le := Nat.le_refl n

/-- A register with all lanes active and the same element of `bytes` bytes in each, if there is
room for it. -/
def make (bytes n : Nat) (value : α) : Except Fault (Register α n) := do
  Memory.reserve n bytes
  return replicate n value

/-- What a lane holds, active or not. -/
def lane (r : Register α n) (i : Nat) : α := r.stored.getD i r.rest

/-- Set every active lane to the value `f` has at its index. -/
def tabulate (r : Register α n) (f : (i : Nat) → i < r.width → α) : Register α n :=
  { r with
    stored := (Array.ofFn fun i : Fin r.width => f i i.isLt) ++
      r.stored.extract r.width r.stored.size }

/-- The register with another active width. -/
def withWidth (r : Register α n) (width : Nat) (h : width ≤ n) : Register α n :=
  { r with width, width_le := h }

/-- Change the active width, if the register has that many lanes. -/
def setWidth (r : Register α n) (width : Nat) : Except Fault (Register α n) :=
  if h : width ≤ n then .ok (r.withWidth width h) else .error .brokenPrecondition

/-- Write the elements of `row` into the active lanes, as far as there are elements. -/
def write (r : Register α n) (row : Array α) : Register α n :=
  r.tabulate fun i _ => row.getD i (r.lane i)

/-- Load the active lanes from the beginning of `source`. The register is returned beside the fault,
if there is one: the elements are taken from the source before a lane is written. -/
def load (r : Register α n) (source : Array α) : Register α n × Option Fault :=
  match Buffer.slice source 0 r.width with
  | .ok row => (r.write row, none)
  | .error fault => (r, some fault)

/-- Load the active lanes with the images of the elements of `source`. -/
def loadMap (r : Register α n) (f : β → α) (source : Array β) : Register α n × Option Fault :=
  r.load (source.map f)

/-- Load the active lanes from two sources at once. -/
def loadZip (r : Register α n) (f : β → γ → α) (first : Array β) (second : Array γ) :
    Register α n × Option Fault :=
  r.load (Array.zipWith f first second)

/-- Load every active lane with the value `f` has at its index. -/
def loadWith (r : Register α n) (f : Nat → α) : Register α n :=
  r.tabulate fun i _ => f i

/-- Put the same value into every active lane. -/
def fill (r : Register α n) (value : α) : Register α n :=
  r.tabulate fun _ _ => value

/-- Put the same value into every active lane from lane `start` on. -/
def fillFrom (r : Register α n) (start : Nat) (value : α) : Register α n :=
  r.tabulate fun i _ => if start ≤ i then value else r.lane i

/-- Move the content of the active lanes from lane `offset` on to the first lanes. The lanes behind
them keep what they hold. -/
def moveDown (r : Register α n) (offset : Nat) : Register α n :=
  r.tabulate fun i _ => if i + offset < r.width then r.lane (i + offset) else r.lane i

/-- Move the content of the active lanes down by `offset` lanes, and make the lanes it has left
`vacant`. If it leaves the width altogether, nothing is moved. -/
def slideDown (r : Register α n) (vacant : α) (offset : Nat) : Register α n :=
  if r.width ≤ offset then r.fill vacant
  else (r.moveDown offset).fillFrom (r.width - offset) vacant

/-- Apply `f` to every active lane. -/
def map (r : Register α n) (f : α → α) : Register α n :=
  r.tabulate fun i _ => f (r.lane i)

/-- Combine every active lane with the same lane of `source`, which must be active there too. -/
def combine (r : Register α n) (f : α → β → α) (source : Register β m) :
    Except Fault (Register α n) :=
  if r.width ≤ source.width then .ok (r.tabulate fun i _ => f (r.lane i) (source.lane i))
  else .error .brokenPrecondition

/-- The active lanes. -/
def active (r : Register α n) : Array α := Array.ofFn fun i : Fin r.width => r.lane i

@[simp] theorem width_replicate (n : Nat) (value : α) : (replicate n value).width = n := rfl

@[simp] theorem lane_replicate (n : Nat) (value : α) (i : Nat) :
    (replicate n value).lane i = value := by
  simp [lane, replicate]

@[simp] theorem width_withWidth (r : Register α n) (width : Nat) (h : width ≤ n) :
    (r.withWidth width h).width = width := rfl

@[simp] theorem lane_withWidth (r : Register α n) (width : Nat) (h : width ≤ n) (i : Nat) :
    (r.withWidth width h).lane i = r.lane i := rfl

@[simp] theorem width_tabulate (r : Register α n) (f : (i : Nat) → i < r.width → α) :
    (r.tabulate f).width = r.width := rfl

/-- A tabulation sets the active lanes and keeps the others. -/
theorem lane_tabulate (r : Register α n) (f : (i : Nat) → i < r.width → α) (i : Nat) :
    (r.tabulate f).lane i = if h : i < r.width then f i h else r.lane i := by
  simp only [lane, tabulate, Array.getD_eq_getD_getElem?, Array.getElem?_append, Array.size_ofFn,
    Array.getElem?_ofFn, Array.getElem?_extract]
  by_cases h : i < r.width
  · simp [h]
  · simp only [h, if_false, dite_false]
    by_cases hi : i < r.stored.size
    · rw [if_pos (by omega), show r.width + (i - r.width) = i by omega]
    · rw [if_neg (by omega), Array.getElem?_eq_none (by omega)]

theorem lane_tabulate_of_lt (r : Register α n) (f : (i : Nat) → i < r.width → α) {i : Nat}
    (h : i < r.width) : (r.tabulate f).lane i = f i h := by
  rw [lane_tabulate, dif_pos h]

theorem lane_tabulate_of_le (r : Register α n) (f : (i : Nat) → i < r.width → α) {i : Nat}
    (h : r.width ≤ i) : (r.tabulate f).lane i = r.lane i := by
  rw [lane_tabulate, dif_neg (Nat.not_lt.2 h)]

/-- A tabulation leaves nothing of an earlier one. -/
theorem tabulate_tabulate (r : Register α n) (f g : (i : Nat) → i < r.width → α) :
    (r.tabulate f).tabulate g = r.tabulate g := by
  have hhidden : (r.tabulate f).stored.extract r.width (r.tabulate f).stored.size =
      r.stored.extract r.width r.stored.size := by
    ext i h₁ h₂
    · simp only [tabulate, Array.size_extract, Array.size_append, Array.size_ofFn]
      omega
    · simp [tabulate]
  simp only [tabulate] at hhidden ⊢
  rw [hhidden]

theorem tabulate_congr (r : Register α n) {f g : (i : Nat) → i < r.width → α}
    (h : ∀ i hi, f i hi = g i hi) : r.tabulate f = r.tabulate g := by
  congr 1
  funext i hi
  exact h i hi

/-- A load from a source that is long enough. -/
theorem load_of_le {r : Register α n} {source : Array α} (h : r.width ≤ source.size) :
    r.load source = (r.tabulate fun i hi => source[i], none) := by
  have hrow : Buffer.slice source 0 r.width = .ok (source.extract 0 (0 + r.width)) :=
    Buffer.slice_eq_ok_iff.2 ⟨by rwa [Nat.zero_add], rfl⟩
  have hwrite : r.write (source.extract 0 (0 + r.width)) = r.tabulate fun i hi => source[i] := by
    refine tabulate_congr r fun i hi => ?_
    have hi' : i < min r.width source.size := Nat.lt_min.2 ⟨hi, Nat.lt_of_lt_of_le hi h⟩
    simp [Array.getD, hi']
  rw [load, hrow]
  exact congrArg (·, none) hwrite

/-- A load from a source that is too short fails before a lane is written. -/
theorem load_short {r : Register α n} {source : Array α} (h : source.size < r.width) :
    r.load source = (r, some .outOfRange) := by
  rw [load, Buffer.slice, if_neg (by omega)]

@[simp] theorem width_slideDown (r : Register α n) (vacant : α) (offset : Nat) :
    (r.slideDown vacant offset).width = r.width := by
  rw [slideDown]
  split <;> rfl

/-- A slide sets every active lane to what the lane `offset` lanes above it held, or to `vacant` if
that lane is not active. -/
theorem slideDown_eq (r : Register α n) (vacant : α) (offset : Nat) :
    r.slideDown vacant offset =
      r.tabulate fun i _ => if i + offset < r.width then r.lane (i + offset) else vacant := by
  rw [slideDown]
  split
  · rename_i hfar
    refine tabulate_congr r fun i hi => ?_
    rw [if_neg (by omega)]
  · rename_i hnear
    refine (tabulate_tabulate r _ _).trans (tabulate_congr r fun i hi => ?_)
    by_cases hmoved : i + offset < r.width
    · rw [if_neg (by omega), if_pos hmoved, moveDown, lane_tabulate_of_lt _ _ hi, if_pos hmoved]
    · rw [if_pos (by omega), if_neg hmoved]

@[simp] theorem size_active (r : Register α n) : r.active.size = r.width := by
  simp [active]

@[simp] theorem getElem_active (r : Register α n) (i : Nat) (h : i < r.active.size) :
    r.active[i] = r.lane i := by
  simp [active]

end Register

end DirectConv
