import DirectConv.Proofs.Canonical
import DirectConv.Proofs.Engine.State

/-!
# One input row

An input row adds one filter row to each output row it reaches. The loops over groups, filter
columns and filter rows are followed from the inside out: every statement says what the active cells
are afterwards, in terms of what they were.

## Main definitions

- `DirectConv.Job.lane`, `DirectConv.Job.terms`: what the register shows, and what meets in a cell
- `DirectConv.Tile.Inside`, `DirectConv.Blocking.Spans`, `DirectConv.Blocking.Suits`,
  `DirectConv.Blocking.HasTaps`, `DirectConv.Job.Fits`: what a tile is computed from fits together
- `DirectConv.Job.Feeds`: the part of it that input rows need

## Main statements

- `DirectConv.Engine.feedRow_hasCells`: the effect of one input row
-/

namespace DirectConv

/-- The tile reads and computes columns that exist, and is no wider than a register. -/
structure Tile.Inside (tile : Tile) (b : Blocking) (width : Nat) : Prop where
  outWidth_le : tile.outWidth ≤ tile.inWidth
  inWidth_le : tile.inWidth ≤ b.maxLanes
  input_le : tile.col + tile.inWidth ≤ width
  output_le : tile.col + tile.outWidth ≤ width + 1 - b.filter.side

/-- The input holds a window of the filter, and the engine consumes some of its channels. -/
structure Blocking.Spans {R : Regime} (b : Blocking) (planes : Planes R.Input) : Prop where
  side_le_height : b.filter.side ≤ planes.height
  side_le_width : b.filter.side ≤ planes.width
  height_lt : planes.height + 1 < Size.bound
  width_lt : planes.width + 1 < Size.bound
  groups_pos : 0 < b.groups

/-- The input holds a window of the filter, and the engine consumes all its channels, which it can
count. -/
structure Blocking.Suits {R : Regime} (b : Blocking) (planes : Planes R.Input) : Prop extends
    b.Spans planes where
  groups_eq : b.groups = R.groups planes.channels
  lastChannel_lt : ∀ group < b.groups, R.lastChannel group < Size.bound

/-- The taps are given by filter row, channel group and filter column. -/
structure Blocking.HasTaps {R : Regime} (b : Blocking) (taps : Array R.Tap)
    (tap : Nat → Nat → Nat → R.Tap) : Prop where
  taps_size : taps.size = b.groups * b.filter.taps
  taps_get : ∀ kernelRow < b.filter.side, ∀ group < b.groups, ∀ column < b.filter.side,
    taps[(group * b.filter.side + kernelRow) * b.filter.side + column]? =
      some (tap kernelRow group column)

namespace Job

variable {R : Regime}

/-- Lane `x` of a register that holds group `group` of input row `row`. Columns behind the tile are
vacant. -/
def lane (job : Job R) (row group x : Nat) : R.Lane :=
  if x < job.tile.inWidth then R.laneAt job.planes group row (job.tile.col + x) else R.vacantLane

/-- What meets in column `x` of the tile in output row `row`, for the taps `tap`. -/
def terms (job : Job R) (tap : Nat → Nat → Nat → R.Tap) (row x : Nat) : R.Terms where
  lane kernelRow group column := job.lane (row + kernelRow) group (x + column)
  tap := tap

/-- The tile lies inside the input and fits the engine, which can load all its groups, and `tap` are
the taps. -/
structure Fits (job : Job R) (b : Blocking) (tap : Nat → Nat → Nat → R.Tap) : Prop extends
    b.Spans job.planes, b.HasTaps job.taps tap, job.tile.Inside b job.planes.width where
  readable : ∀ group < b.groups, ∀ row < job.planes.height,
    R.readable job.planes group row job.tile.col job.tile.inWidth = true

/-- What feeding input rows needs: the tile is no wider than its input columns, the engine can load
all its groups there, and `tap` are the taps. -/
structure Feeds (job : Job R) (b : Blocking) (tap : Nat → Nat → Nat → R.Tap) : Prop extends
    b.HasTaps job.taps tap where
  outWidth_le : job.tile.outWidth ≤ job.tile.inWidth
  readable : ∀ group < b.groups, ∀ row < job.planes.height,
    R.readable job.planes group row job.tile.col job.tile.inWidth = true

theorem Fits.feeds {job : Job R} {b : Blocking} {tap : Nat → Nat → Nat → R.Tap}
    (h : job.Fits b tap) : job.Feeds b tap :=
  ⟨h.toHasTaps, h.outWidth_le, h.readable⟩

end Job

/-- The groups of an engine that consumes all channels of the input can be loaded. -/
theorem Blocking.Suits.fits {R : Regime} {b : Blocking} {job : Job R}
    {tap : Nat → Nat → Nat → R.Tap} (hplanes : b.Suits job.planes) (hR : R.Sound b.filter)
    (htaps : b.HasTaps job.taps tap) (hinside : job.tile.Inside b job.planes.width) :
    job.Fits b tap where
  toSpans := hplanes.toSpans
  toHasTaps := htaps
  toInside := hinside
  readable group hgroup _ hrow := Regime.readable_iff.2 ⟨hplanes.lastChannel_lt group hgroup,
    hR.covers (hplanes.groups_eq ▸ hgroup) hrow hinside.input_le⟩

namespace Engine

variable {R : Regime} {b : Blocking} {job : Job R} {tap : Nat → Nat → Nat → R.Tap}

/-- One contribution to one output row. -/
theorem contribute_hasCells (hR : R.Sound b.filter) (hjob : job.Feeds b tap)
    {base row group column kernelRow : Nat} (hgroup : group < b.groups)
    (hcolumn : column < b.filter.side) (hkernel : kernelRow < b.filter.side)
    (hle : kernelRow ≤ row) (hbase : base ≤ row - kernelRow)
    (hslot : row - kernelRow < base + b.slots) {engine : Engine R b} {cell : Nat → Nat → R.Cell}
    (hlane : ∀ x < job.tile.outWidth, engine.register.lane x = job.lane row group (x + column))
    (h : engine.HasCells job.tile cell) :
    ∃ engine', contribute job base row group column engine kernelRow = .ok engine' ∧
      engine'.register = engine.register ∧
      engine'.HasCells job.tile fun k x => if base + k = row - kernelRow then
        (job.terms tap (row - kernelRow) x).step kernelRow group (cell k x) column
        else cell k x := by
  rw [contribute, hjob.taps_get kernelRow hkernel group hgroup column hcolumn]
  refine updateRow_hasCells h hbase hslot (g := fun x cell =>
    (job.terms tap (row - kernelRow) x).step kernelRow group cell column) fun acc hacc => ?_
  have hwidth : acc.width ≤ engine.register.width := by
    rw [hacc, h.register_width]
    exact hjob.outWidth_le
  have hterm : ∀ x < job.tile.outWidth,
      (job.terms tap (row - kernelRow) x).lane kernelRow group column =
        engine.register.lane x := by
    intro x hx
    rw [hlane x hx]
    exact congrArg (job.lane · group (x + column)) (Nat.sub_add_cancel hle)
  by_cases hfirst : kernelRow = 0 ∧ group = 0 ∧ column = 0
  · refine ⟨_, (if_pos hfirst).trans (Accumulator.contribute_ok hR hwidth _), hacc, fun x hx => ?_⟩
    rw [Register.lane_tabulate_of_lt _ _ (by omega), Regime.Terms.step, if_pos hfirst, hterm x hx]
    rfl
  · refine ⟨_, (if_neg hfirst).trans (Accumulator.contribute_ok hR hwidth _), hacc, fun x hx => ?_⟩
    rw [Register.lane_tabulate_of_lt _ _ (by omega), Regime.Terms.step, if_neg hfirst, hterm x hx]
    rfl

/-- The filter rows of a list that lead to output rows in progress. -/
structure Leads (b : Blocking) (base row : Nat) (kernelRows : List Nat) : Prop where
  nodup : kernelRows.Nodup
  lt_side : ∀ d ∈ kernelRows, d < b.filter.side
  le_row : ∀ d ∈ kernelRows, d ≤ row
  base_le : ∀ d ∈ kernelRows, base ≤ row - d
  lt_slots : row < base + b.slots

variable {base row : Nat} {kernelRows : List Nat}

/-- One filter column. If it is not the last one, the register shows the next one afterwards. -/
theorem feedColumn_hasCells (hR : R.Sound b.filter) (hjob : job.Feeds b tap)
    (hrows : Leads b base row kernelRows) {group column : Nat} (hgroup : group < b.groups)
    (hcolumn : column < b.filter.side) {engine : Engine R b} {cell : Nat → Nat → R.Cell}
    (hlane : ∀ x < job.tile.inWidth, engine.register.lane x = job.lane row group (x + column))
    (h : engine.HasCells job.tile cell) :
    ∃ engine', feedColumn job base row group kernelRows engine column = .ok engine' ∧
      (column + 1 < b.filter.side →
        ∀ x < job.tile.inWidth, engine'.register.lane x = job.lane row group (x + (column + 1))) ∧
      engine'.HasCells job.tile fun k x =>
        if base + k ≤ row ∧ row - (base + k) ∈ kernelRows then
          (job.terms tap (base + k) x).step (row - (base + k)) group (cell k x) column
        else cell k x := by
  obtain ⟨engine₁, hfold, hregister, h₁⟩ := foldlM_hasCells job.tile base
    (g := fun d x cell => (job.terms tap (row - d) x).step d group cell column)
    hrows.nodup hrows.le_row (fun d hd engine' cell' hreg h' => by
      have hlt := hrows.lt_slots
      rw [← hreg]
      exact contribute_hasCells hR hjob hgroup hcolumn (hrows.lt_side d hd) (hrows.le_row d hd)
        (hrows.base_le d hd) (by omega)
        (fun x hx => hreg ▸ hlane x (Nat.lt_of_lt_of_le hx hjob.outWidth_le)) h') rfl h
  have h₂ : engine₁.HasCells job.tile fun k x =>
      if base + k ≤ row ∧ row - (base + k) ∈ kernelRows then
        (job.terms tap (base + k) x).step (row - (base + k)) group (cell k x) column
      else cell k x := h₁.congr fun k _ x _ => by
    by_cases hk : base + k ≤ row ∧ row - (base + k) ∈ kernelRows
    · rw [if_pos hk, if_pos hk, Nat.sub_sub_self hk.1]
    · rw [if_neg hk, if_neg hk]
  -- the slide frees the last lane, which no output column of the tile needs any more
  by_cases hlast : column + 1 < b.filter.side
  · refine ⟨{ engine₁ with register := engine₁.register.slideDown R.vacantLane 1 }, ?_,
      fun _ x hx => ?_,
      h₂.withRegister _ ((Register.width_slideDown _ _ _).trans h₁.register_width)⟩
    · rw [feedColumn, bind_of_eq_ok hfold, if_pos hlast]
      rfl
    · have hwidth : engine₁.register.width = job.tile.inWidth := h₁.register_width
      change (engine₁.register.slideDown R.vacantLane 1).lane x = _
      rw [Register.slideDown_eq, Register.lane_tabulate_of_lt _ _ (by omega), hwidth]
      by_cases hx' : x + 1 < job.tile.inWidth
      · rw [if_pos hx', hregister, hlane _ hx', Nat.add_right_comm, Nat.add_assoc]
      · rw [if_neg hx', Job.lane, if_neg (by omega)]
  · refine ⟨engine₁, ?_, fun h => absurd h hlast, h₂⟩
    rw [feedColumn, bind_of_eq_ok hfold, if_neg hlast]
    rfl

/-- One channel group: all filter columns, and the end of the group. -/
theorem feedGroup_hasCells (hR : R.Sound b.filter) (hjob : job.Feeds b tap)
    (hrows : Leads b base row kernelRows) (hrow : row < job.planes.height) {group : Nat}
    (hgroup : group < b.groups) {engine : Engine R b} {cell : Nat → Nat → R.Cell}
    (h : engine.HasCells job.tile cell) :
    ∃ engine', feedGroup job base row kernelRows engine group = .ok engine' ∧
      engine'.HasCells job.tile fun k x =>
        if base + k ≤ row ∧ row - (base + k) ∈ kernelRows then
          (job.terms tap (base + k) x).addGroup b.filter b.groups (row - (base + k)) (cell k x)
            group
        else cell k x := by
  have hload : R.loadRow job.planes group row job.tile.col engine.register = _ :=
    Regime.loadRow_ok (by rw [h.register_width]; exact hjob.readable group hgroup row hrow)
  -- after `column` columns the register has been slid down as often
  let P (column : Nat) (e : Engine R b) : Prop :=
    (column < b.filter.side →
      ∀ x < job.tile.inWidth, e.register.lane x = job.lane row group (x + column)) ∧
    e.HasCells job.tile fun k x => if base + k ≤ row ∧ row - (base + k) ∈ kernelRows then
      (job.terms tap (base + k) x).addColumns (row - (base + k)) group column (cell k x)
      else cell k x
  let loaded := engine.register.loadWith fun i => R.laneAt job.planes group row (job.tile.col + i)
  have hloaded := h.withRegister loaded h.register_width
  have hstart : P 0 { engine with register := loaded } := by
    refine ⟨fun _ x hx => ?_, hloaded.congr fun k _ x _ => ?_⟩
    · have hwidth := h.register_width
      refine (Register.lane_tabulate_of_lt engine.register _ (by omega)).trans ?_
      exact (if_pos hx).symm
    · split <;> rfl
  obtain ⟨engine₁, hcolumns, -, h₁⟩ := foldlM_range_ok P hstart fun column e hcolumn hP => by
    obtain ⟨e', he', hlane', h'⟩ := feedColumn_hasCells hR hjob hrows hgroup hcolumn
      (hP.1 hcolumn) hP.2
    refine ⟨e', he', hlane', h'.congr fun k _ x _ => ?_⟩
    by_cases hk : base + k ≤ row ∧ row - (base + k) ∈ kernelRows
    · simp only [if_pos hk, Regime.Terms.addColumns_succ]
    · simp only [if_neg hk]
  -- the end of the group leads to the same slots as its contributions
  obtain ⟨engine₂, hend, -, h₂⟩ := foldlM_hasCells job.tile base
    (f := fun engine kernelRow => engine.updateRow base (row - kernelRow) fun acc =>
      return acc.endGroup b.filter group b.groups)
    (g := fun _ _ cell => R.endGroup b.filter group b.groups cell)
    hrows.nodup hrows.le_row (fun d hd engine' cell' hreg h' => by
      have hlt := hrows.lt_slots
      rw [← hreg]
      refine updateRow_hasCells h' (hrows.base_le d hd) (by omega) fun acc hacc => ?_
      refine ⟨_, rfl, hacc, fun x hx => ?_⟩
      exact Register.lane_tabulate_of_lt acc _ (by omega)) rfl h₁
  refine ⟨engine₂, ?_, h₂.congr fun k _ x _ => ?_⟩
  · rw [feedGroup, bind_of_eq_ok hload, bind_of_eq_ok hcolumns, hend]
  · by_cases hk : base + k ≤ row ∧ row - (base + k) ∈ kernelRows
    · simp only [if_pos hk]
      rfl
    · simp only [if_neg hk]

/-- The effect of input row `row` while the slots belong to the output rows from `base` on: every
output row it reaches receives the filter row that leads to it. -/
theorem feedRow_hasCells (hR : R.Sound b.filter) (hjob : job.Feeds b tap) {rows : Nat}
    (hbase : base = 0 ∨ base + b.filter.carry ≤ row) (hslots : row < base + b.slots)
    (hrow : row < job.planes.height) {engine : Engine R b} {cell : Nat → Nat → R.Cell}
    (h : engine.HasCells job.tile cell) :
    ∃ engine', feedRow job base rows engine row = .ok engine' ∧
      engine'.HasCells job.tile fun k x =>
        if base + k ≤ row ∧ row < base + k + b.filter.side ∧ base + k < rows then
          (job.terms tap (base + k) x).addRow b.filter b.groups (cell k x) (row - (base + k))
        else cell k x := by
  have hside := b.filter.carry_add_one
  have hmem {d : Nat} : d ∈ kernelRows b.filter.side rows row ↔ d < b.filter.side ∧ d ≤ row ∧
      row - d < rows := mem_kernelRows b.filter.side_pos
  have hleads : Leads b base row (kernelRows b.filter.side rows row) :=
    ⟨List.nodup_range', fun d hd => (hmem.1 hd).1, fun d hd => (hmem.1 hd).2.1,
      fun d hd => by have := hmem.1 hd; omega, hslots⟩
  have hreach (k : Nat) : (base + k ≤ row ∧ row - (base + k) ∈ kernelRows b.filter.side rows row) ↔
      base + k ≤ row ∧ row < base + k + b.filter.side ∧ base + k < rows := by
    rw [hmem]
    omega
  rw [feedRow]
  split
  -- no output row is reached, so the row is not even loaded
  · rename_i hnil
    refine ⟨engine, rfl, h.congr fun k _ x _ => ?_⟩
    rw [if_neg fun hk => by have := ((hreach k).2 hk).2; rw [hnil] at this; cases this]
  · rename_i d rest hcons
    rw [← hcons]
    obtain ⟨engine', hfold, h'⟩ := foldlM_range_ok
      (f := feedGroup job base row (kernelRows b.filter.side rows row))
      (fun group e => e.HasCells job.tile fun k x =>
        if base + k ≤ row ∧ row - (base + k) ∈ kernelRows b.filter.side rows row then
          (job.terms tap (base + k) x).addGroups b.filter b.groups (row - (base + k)) group
            (cell k x)
        else cell k x)
      (h.congr fun k _ x _ => by split <;> rfl) fun group e (hgroup : group < b.groups) he => by
        obtain ⟨e', he', h'⟩ := feedGroup_hasCells hR hjob hleads hrow hgroup he
        refine ⟨e', he', h'.congr fun k _ x _ => ?_⟩
        by_cases hk : base + k ≤ row ∧ row - (base + k) ∈ kernelRows b.filter.side rows row
        · simp only [if_pos hk, Regime.Terms.addGroups_succ]
        · simp only [if_neg hk]
    refine ⟨engine', hfold, h'.congr fun k _ x _ => ?_⟩
    simp only [hreach]
    rfl

end Engine

end DirectConv
