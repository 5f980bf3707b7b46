import DirectConv.Proofs.Engine.Row

/-!
# One tile

Between two blocks every slot holds the beginning of an output row: the filter rows through which
the input rows fed so far contribute to it. Feeding an input row, storing a block and rotating the
slots keep this invariant, and when a row is stored it has received all its filter rows. So every
element of the tile is the one its terms give in canonical order, and no other element of the
plane changes.

## Main definitions

- `DirectConv.Job.element`: the output element in one row and column of a tile
- `DirectConv.Engine.Carries`: the invariant of the slots
- `DirectConv.Job.Stored`: the output plane while its rows are stored

## Main statements

- `DirectConv.Engine.runTile_ok`: the effect of a tile
-/

namespace DirectConv

namespace Job

variable {R : Regime}

/-- The element of output row `row` in column `x` of the tile. -/
def element (job : Job R) (b : Blocking) (tap : Nat → Nat → Nat → R.Tap) (row x : Nat) :
    R.Output :=
  R.result ((job.terms tap row x).cell b.filter b.groups)

/-- Rows of an output plane. -/
def rows (job : Job R) (b : Blocking) : Nat := job.planes.height + 1 - b.filter.side

/-- Columns of an output plane. -/
def cols (job : Job R) (b : Blocking) : Nat := job.planes.width + 1 - b.filter.side

/-- The first `count` rows of the tile are stored in `plane`, and everything else is as it was in
`initial`. -/
structure Stored (job : Job R) (b : Blocking) (tap : Nat → Nat → Nat → R.Tap)
    (initial : Array R.Output) (count : Nat) (plane : Array R.Output) : Prop where
  size_eq : plane.size = initial.size
  get : ∀ row < job.rows b, ∀ col < job.cols b, plane[row * job.cols b + col]? =
    if row < count ∧ job.tile.col ≤ col ∧ col < job.tile.col + job.tile.outWidth then
      some (job.element b tap row (col - job.tile.col))
    else initial[row * job.cols b + col]?

theorem stored_zero (job : Job R) (b : Blocking) (tap : Nat → Nat → Nat → R.Tap)
    (plane : Array R.Output) : job.Stored b tap plane 0 plane :=
  ⟨rfl, fun _ _ _ _ => (if_neg fun h => Nat.not_lt_zero _ h.1).symm⟩

end Job

namespace Engine

variable {R : Regime} {b : Blocking} {job : Job R} {tap : Nat → Nat → Nat → R.Tap}
  {engine : Engine R b} {base fed : Nat}

/-- The input rows before `fed` have been fed and the output rows before `base` have been stored:
slot `k` holds what output row `base + k` has received. -/
def Carries (job : Job R) (tap : Nat → Nat → Nat → R.Tap) (base fed : Nat) (engine : Engine R b) :
    Prop :=
  ∃ cell, engine.HasCells job.tile cell ∧
    ∀ k < b.slots, ∀ x < job.tile.outWidth, base + k < job.rows b →
      ∃ start, cell k x = (job.terms tap (base + k) x).addRows b.filter b.groups
        (min b.filter.side (fed - (base + k))) start

/-- Before the first input row every state will do. -/
theorem HasCells.carries {cell : Nat → Nat → R.Cell} (h : engine.HasCells job.tile cell) :
    engine.Carries job tap 0 0 :=
  ⟨cell, h, fun k _ x _ _ => ⟨cell k x, by rw [Nat.zero_sub, Nat.min_zero]; rfl⟩⟩

theorem feedRow_carries (hR : R.Sound b.filter) (hjob : job.Feeds b tap)
    (hbase : base = 0 ∨ base + b.filter.carry ≤ fed) (hslots : fed < base + b.slots)
    (hfed : fed < job.planes.height) (h : engine.Carries job tap base fed) :
    ∃ engine', feedRow job base (job.rows b) engine fed = .ok engine' ∧
      engine'.Carries job tap base (fed + 1) := by
  obtain ⟨cell, hcell, hrows⟩ := h
  obtain ⟨engine', hfeed, h'⟩ := feedRow_hasCells hR hjob hbase hslots hfed hcell
  refine ⟨engine', hfeed, _, h', fun k hk x hx hrow => ?_⟩
  obtain ⟨start, hstart⟩ := hrows k hk x hx hrow
  refine ⟨start, ?_⟩
  by_cases hreach : base + k ≤ fed ∧ fed < base + k + b.filter.side
  · rw [if_pos ⟨hreach.1, hreach.2, hrow⟩, hstart, Nat.min_eq_right (by omega),
      Nat.min_eq_right (by omega), show fed + 1 - (base + k) = fed - (base + k) + 1 by omega,
      Regime.Terms.addRows_succ]
  · -- the row is not reached yet, or it has received all its filter rows
    rw [if_neg fun h => hreach ⟨h.1, h.2.1⟩, hstart]
    congr 1
    omega

/-- The input rows of a stretch, one after the other. -/
theorem feedRows_carries (hR : R.Sound b.filter) (hjob : job.Feeds b tap) (count : Nat)
    (hbase : base = 0 ∨ base + b.filter.carry ≤ fed) (hslots : fed + count ≤ base + b.slots)
    (hfed : fed + count ≤ job.planes.height) (h : engine.Carries job tap base fed) :
    ∃ engine', (List.range' fed count).foldlM (feedRow job base (job.rows b)) engine = .ok engine' ∧
      engine'.Carries job tap base (fed + count) :=
  foldlM_range'_ok (fun j (e : Engine R b) => e.Carries job tap base j) h fun j _ hj hj' he =>
    feedRow_carries hR hjob (by omega) (by omega) (by omega) he

/-- The rotation moves the unfinished rows to the slots of the next block. No input row has reached
the rows behind them, so whatever stands in their slots will do. -/
theorem rotate_carries (h : engine.Carries job tap base (base + b.filter.carry + b.block)) :
    engine.rotate.Carries job tap (base + b.block) (base + b.block + b.filter.carry) := by
  obtain ⟨cell, hcell, hrows⟩ := h
  refine ⟨_, rotate_hasCells hcell, fun k hk x hx hrow => ?_⟩
  by_cases hcarry : k < b.filter.carry
  · have hk' : k + b.block < b.slots := by rw [Blocking.slots]; omega
    obtain ⟨start, hstart⟩ := hrows (k + b.block) hk' x hx (by omega)
    refine ⟨start, ?_⟩
    rw [Nat.mod_eq_of_lt hk', hstart, show base + (k + b.block) = base + b.block + k by omega,
      show base + b.filter.carry + b.block = base + b.block + b.filter.carry by omega]
  · refine ⟨cell ((k + b.block) % b.slots) x, ?_⟩
    rw [show base + b.block + b.filter.carry - (base + b.block + k) = 0 by omega, Nat.min_zero]
    rfl

/-- The stretch of columns a tile has in one row holds no cell of another row. -/
theorem not_in_other_row {start width cols row other col : Nat} (hwidth : start + width ≤ cols)
    (hcol : col < cols) (hne : other ≠ row) :
    ¬ (row * cols + start ≤ other * cols + col ∧
      other * cols + col < row * cols + start + width) := by
  intro h
  rcases Nat.lt_or_gt_of_ne hne with hlt | hgt
  · have hbefore := Nat.mul_le_mul_right cols (Nat.succ_le_of_lt hlt)
    rw [Nat.succ_mul] at hbefore
    omega
  · have hbehind := Nat.mul_le_mul_right cols (Nat.succ_le_of_lt hgt)
    rw [Nat.succ_mul] at hbehind
    omega

/-- A row that all its input rows have been fed to is finished. -/
theorem Carries.lane_eq_cell (hgroups : 0 < b.groups) (h : engine.Carries job tap base fed)
    {slot : Nat} (hslot : slot < b.slots) (hrow : base + slot < job.rows b)
    (hfed : base + slot + b.filter.side ≤ fed) {x : Nat} (hx : x < job.tile.outWidth) :
    engine.slots[slot].lane x = (job.terms tap (base + slot) x).cell b.filter b.groups := by
  obtain ⟨cell, hcell, hrows⟩ := h
  obtain ⟨start, hstart⟩ := hrows slot hslot x hx hrow
  rw [hcell.slot_lane slot hslot x hx, hstart, Nat.min_eq_left (by omega)]
  exact Regime.Terms.addRows_side_eq_cell _ hgroups _

/-- A row that all its input rows have been fed to is stored as its elements. -/
theorem storeRow_stored (hR : R.Sound b.filter) (hjob : job.Fits b tap)
    {initial plane : Array R.Output} (hsize : initial.size = job.rows b * job.cols b) {slot : Nat}
    (hslot : slot < b.slots) (hrow : base + slot < job.rows b)
    (hfed : base + slot + b.filter.side ≤ fed) (h : engine.Carries job tap base fed)
    (hplane : job.Stored b tap initial (base + slot) plane) :
    ∃ plane', engine.storeRow job.tile (job.cols b) base plane slot = .ok plane' ∧
      job.Stored b tap initial (base + slot + 1) plane' := by
  have hwidth : engine.slots[slot].width = job.tile.outWidth := by
    obtain ⟨_, hcell, -⟩ := h
    exact hcell.slot_width slot hslot
  have hcols : job.tile.col + job.tile.outWidth ≤ job.cols b := hjob.output_le
  have hlane : ∀ x < job.tile.outWidth, engine.slots[slot].lane x =
      (job.terms tap (base + slot) x).cell b.filter b.groups :=
    fun x hx => h.lane_eq_cell hjob.groups_pos hslot hrow hfed hx
  have hend : (base + slot) * job.cols b + job.cols b ≤ plane.size := by
    rw [hplane.size_eq, hsize, ← Nat.succ_mul]
    exact Nat.mul_le_mul_right _ hrow
  obtain ⟨plane', hstore, hsize', hget⟩ := Accumulator.store_getElem? hR plane
    ((base + slot) * job.cols b + job.tile.col) (by omega) (Nat.le_of_eq hwidth) fun x hx =>
      (congrArg R.settled (hlane x (hwidth ▸ hx))).trans (hR.settled_cell _ hjob.groups_pos)
  refine ⟨plane', (dif_pos hslot).trans hstore, hsize'.trans hplane.size_eq,
    fun row hrow' col hcol => ?_⟩
  rw [hget, hwidth, hplane.get row hrow' col hcol]
  by_cases heq : row = base + slot
  · subst heq
    by_cases hin : job.tile.col ≤ col ∧ col < job.tile.col + job.tile.outWidth
    · rw [if_pos (by omega), if_pos ⟨Nat.lt_succ_self _, hin⟩, Nat.add_sub_add_left,
        hlane _ (by omega)]
      rfl
    · rw [if_neg (by omega), if_neg (by omega), if_neg fun h => hin h.2]
  · rw [if_neg (not_in_other_row hcols hcol heq)]
    congr 1
    rw [eq_iff_iff]
    omega

/-- A block of rows: its input rows are fed and its output rows are stored. -/
theorem finishBlock_stored (hR : R.Sound b.filter) (hjob : job.Fits b tap)
    {initial plane : Array R.Output} (hsize : initial.size = job.rows b * job.cols b)
    (count : Nat) (hcount : count ≤ b.block) (hrows : base + count ≤ job.rows b)
    (h : engine.Carries job tap base (base + b.filter.carry))
    (hplane : job.Stored b tap initial base plane) :
    ∃ engine' plane', finishBlock job (job.rows b) (job.cols b) ⟨base, count⟩ (engine, plane) =
        .ok (engine', plane') ∧
      engine'.Carries job tap base (base + b.filter.carry + count) ∧
      job.Stored b tap initial (base + count) plane' := by
  have hside := b.filter.carry_add_one
  have hheight := hjob.side_le_height
  have hrows' : job.rows b = job.planes.height + 1 - b.filter.side := rfl
  have hslots : b.slots = b.block + b.filter.carry := rfl
  obtain ⟨engine', hfeed, h'⟩ := feedRows_carries hR hjob.feeds count (Or.inr (Nat.le_refl _))
    (by omega) (by omega) h
  obtain ⟨plane', hstore, hplane'⟩ := foldlM_range_ok
    (fun slot plane => job.Stored b tap initial (base + slot) plane) hplane
    fun slot plane (hslot : slot < count) hplane =>
      storeRow_stored hR hjob hsize (by omega) (by omega) (by omega) h' hplane
  refine ⟨engine', plane', ?_, h', hplane'⟩
  rw [finishBlock, RowBlock.fed, bind_of_eq_ok hfeed, storeBlock, bind_of_eq_ok hstore]
  rfl

/-- The blocks from output row `base` on. -/
theorem blocks_stored (hR : R.Sound b.filter) (hjob : job.Fits b tap)
    {initial plane : Array R.Output} (hsize : initial.size = job.rows b * job.cols b)
    (hbase : base < job.rows b) (h : engine.Carries job tap base (base + b.filter.carry))
    (hplane : job.Stored b tap initial base plane) :
    let schedule := Schedule.startingAt b.block (job.rows b) b.block_pos base
    ∃ state engine' plane',
      schedule.steady.foldlM (steadyBlock job (job.rows b) (job.cols b)) (engine, plane) =
        .ok state ∧
      finishBlock job (job.rows b) (job.cols b) schedule.drain state = .ok (engine', plane') ∧
      job.Stored b tap initial (job.rows b) plane' := by
  -- a rotation restores the invariant for the rows behind the block
  induction base using Schedule.startingAt.induct b.block (job.rows b) b.block_pos
    generalizing engine plane with
  | case1 base hlt ih =>
    obtain ⟨engine₁, plane₁, hblock, h₁, hplane₁⟩ :=
      finishBlock_stored hR hjob hsize b.block (Nat.le_refl _) (by omega) h hplane
    obtain ⟨state, engine₂, plane₂, hsteady, hdrain, hplane₂⟩ :=
      ih (by omega) (rotate_carries h₁) hplane₁
    rw [Schedule.startingAt, if_pos hlt]
    refine ⟨state, engine₂, plane₂, ?_, hdrain, hplane₂⟩
    rw [List.foldlM_cons, steadyBlock, bind_of_eq_ok hblock]
    exact hsteady
  | case2 base hlast =>
    obtain ⟨engine₁, plane₁, hblock, -, hplane₁⟩ :=
      finishBlock_stored hR hjob hsize (job.rows b - base) (by omega) (by omega) h hplane
    rw [Schedule.startingAt, if_neg hlast]
    refine ⟨(engine, plane), engine₁, plane₁, rfl, hblock, ?_⟩
    rw [show base + (job.rows b - base) = job.rows b by omega] at hplane₁
    exact hplane₁

/-- A tile stores the elements its terms give in canonical order, and changes nothing else. -/
theorem runTile_ok (hR : R.Sound b.filter) (hjob : job.Fits b tap) (engine : Engine R b)
    {plane : Array R.Output} (hsize : plane.size = job.rows b * job.cols b) :
    ∃ engine' plane', engine.runTile job plane =
        .ok (engine', plane', statsOf (Schedule.ofRows b.block (job.rows b) b.block_pos)) ∧
      job.Stored b tap plane (job.rows b) plane' := by
  have hside := b.filter.carry_add_one
  have hheight := hjob.side_le_height
  have hwidth := hjob.side_le_width
  have hrows' : job.rows b = job.planes.height + 1 - b.filter.side := rfl
  have hrows : Size.windowStarts job.planes.height b.filter.side = .ok (job.rows b) :=
    Size.windowStarts_eq_ok_iff.2 ⟨hjob.height_lt, by omega, rfl⟩
  have hcols : Size.windowStarts job.planes.width b.filter.side = .ok (job.cols b) :=
    Size.windowStarts_eq_ok_iff.2 ⟨hjob.width_lt, by omega, rfl⟩
  have hrequire : require (0 < job.rows b && plane.size == job.rows b * job.cols b &&
      job.taps.size == b.groups * b.filter.taps) .brokenPrecondition = .ok () := by
    have hpos : 0 < job.rows b := by omega
    simp [require, hpos, hsize, hjob.taps_size]
  -- the cells the last tile left may be anything
  obtain ⟨engine₀, cell, htile, hcell⟩ := engine.setTile_hasCells hjob.inWidth_le
    (Nat.le_trans hjob.outWidth_le hjob.inWidth_le)
  obtain ⟨engine₁, hpreload, h₁⟩ := feedRows_carries hR hjob.feeds b.filter.carry (Or.inl rfl)
    (by rw [Blocking.slots]; omega) (by omega) hcell.carries
  rw [Nat.zero_add] at h₁
  obtain ⟨state, engine₂, plane₂, hsteady, hdrain, hplane₂⟩ :=
    blocks_stored hR hjob hsize (by omega) (by rwa [Nat.zero_add]) (job.stored_zero b tap plane)
  have hrun : runSchedule job (job.rows b) (job.cols b)
      (Schedule.ofRows b.block (job.rows b) b.block_pos) engine₀ plane = .ok (engine₂, plane₂) := by
    rw [runSchedule, List.range_eq_range', bind_of_eq_ok hpreload, Schedule.ofRows,
      bind_of_eq_ok hsteady, hdrain]
  refine ⟨engine₂, plane₂, ?_, hplane₂⟩
  rw [runTile, bind_of_eq_ok hrows, bind_of_eq_ok hcols, bind_of_eq_ok hrequire,
    bind_of_eq_ok htile, bind_of_eq_ok hrun]
  rfl

end Engine

end DirectConv
