import DirectConv.Proofs.Engine.Elements
import DirectConv.Proofs.Engine.Phases

/-!
# What is carried from block to block

When a block begins, the input rows before its own have been fed, and the first slots hold the
beginnings of the output rows behind the rows that are stored: all groups of the filter rows
through which those input rows reach them. This holds in every run that gets there, also after
rotations that move a block of any size, for rows near the bottom of the plane, and in slots that
held other rows before.

## Main definitions

- `DirectConv.Blocking.stepsBefore`, `DirectConv.Engine.entering`: the part of a tile before a
  block, as steps and as loops
- `DirectConv.Blocking.Within`: steps that work on rows in progress
- `DirectConv.Engine.Entry`: what holds when a block begins

## Main statements

- `DirectConv.Blocking.within_scheduleSteps`: no step works on a row that is stored, or does not
  exist, or has no slot
- `DirectConv.Engine.entering_carries`: the invariant of the slots
- `DirectConv.Engine.runTile_carries`: both, for every run
-/

namespace DirectConv

namespace Schedule

variable {size rows k : Nat}

/-- Block number `k`, if it is a full block that more rows follow. -/
theorem steady_take_succ (h : 0 < size) (hrows : 0 < rows)
    (hk : k < (ofRows size rows h).steady.length) :
    (ofRows size rows h).steady.take (k + 1) =
      (ofRows size rows h).steady.take k ++ [⟨k * size, size⟩] := by
  rw [List.take_succ_eq_append_getElem hk]
  simp only [ofRows_eq h hrows, List.getElem_map, List.getElem_range]

theorem lt_sub_mul_of_lt (h : 0 < size) (hrows : 0 < rows)
    (hk : k < (ofRows size rows h).steady.length) : size < rows - k * size := by
  rw [ofRows_eq h hrows, List.length_map, List.length_range] at hk
  exact (lt_sub_mul_iff h hrows k).2 hk

/-- Block number `k`, the last one or not, begins `k` full blocks behind the first output row. -/
theorem base_of_getElem? (h : 0 < size) (hrows : 0 < rows) {block : RowBlock}
    (hblock : (ofRows size rows h).blocks[k]? = some block) : block.base = k * size := by
  rw [ofRows_eq h hrows, blocks] at hblock
  rcases Nat.lt_trichotomy k (rows ⌈/⌉ size - 1) with hlt | rfl | hgt
  · rw [List.getElem?_append_left (by simpa using hlt), List.getElem?_map,
      List.getElem?_range hlt] at hblock
    rw [← Option.some.inj hblock]
  · simp at hblock
    rw [← hblock]
  · rw [List.getElem?_eq_none (by simpa using hgt)] at hblock
    cases hblock

end Schedule

namespace Blocking

variable (b : Blocking) {rows : Nat}

/-- The steps before block number `k`. -/
def stepsBefore (rows k : Nat) : List TileStep :=
  (List.range b.filter.carry).flatMap (b.rowSteps rows) ++
    ((Schedule.ofRows b.block rows b.block_pos).steady.take k).flatMap fun block =>
      b.blockSteps rows block ++ [.rotate]

theorem stepsBefore_succ (hrows : 0 < rows) {k : Nat}
    (hk : k < (Schedule.ofRows b.block rows b.block_pos).steady.length) :
    b.stepsBefore rows (k + 1) =
      b.stepsBefore rows k ++ (b.blockSteps rows ⟨k * b.block, b.block⟩ ++ [.rotate]) := by
  rw [stepsBefore, Schedule.steady_take_succ b.block_pos hrows hk, List.flatMap_append,
    List.flatMap_singleton, ← List.append_assoc]
  rfl

/-! ### Input rows -/

/-- The input rows that are loaded before a block, group after group. -/
theorem loaded_stepsBefore (hrows : 0 < rows) {k : Nat}
    (hk : k ≤ (Schedule.ofRows b.block rows b.block_pos).steady.length) :
    (b.stepsBefore rows k).filterMap TileStep.loaded? =
      (List.range (k * b.block + b.filter.carry)).flatMap fun inputRow =>
        (List.range b.groups).map (inputRow, ·) := by
  induction k with
  | zero =>
    rw [stepsBefore, List.take_zero, List.flatMap_nil, List.append_nil, List.filterMap_flatMap,
      Nat.zero_mul, Nat.zero_add]
    exact congrArg (List.flatMap · _) (funext (b.loaded_rowSteps rows))
  | succ k ih =>
    have hfed : List.range ((k + 1) * b.block + b.filter.carry) =
        List.range (k * b.block + b.filter.carry) ++
          List.range' (k * b.block + b.filter.carry) b.block := by
      rw [List.range_eq_range', List.range_eq_range', Nat.succ_mul, Nat.add_right_comm,
        ← List.range'_append_1, Nat.zero_add]
    have hrotate : [TileStep.rotate].filterMap TileStep.loaded? = [] := rfl
    rw [b.stepsBefore_succ hrows hk, List.filterMap_append, List.filterMap_append,
      ih (Nat.le_of_lt hk), loaded_blockSteps, hrotate, List.append_nil, hfed, List.flatMap_append]
    rfl

/-! ### Rows in progress -/

/-- The output row of the first slot after a step. -/
def nextBase (base : Nat) (step : TileStep) : Nat :=
  if step = .rotate then base + b.block else base

/-- Every step works on an output row that exists and has a slot, while the first slot belongs to
output row `base` and moves on with every rotation. -/
def Within (rows : Nat) : (base : Nat) → List TileStep → Prop
  | _, [] => True
  | base, step :: rest =>
    (∀ row, step.concerns row = true → base ≤ row ∧ row < rows ∧ row < base + b.slots) ∧
      Within rows (b.nextBase base step) rest

/-- Steps in front that work on rows in progress and do not rotate. -/
theorem within_append {base : Nat} {steps rest : List TileStep}
    (hsteps : ∀ step ∈ steps, step ≠ .rotate ∧
      ∀ row, step.concerns row = true → base ≤ row ∧ row < rows ∧ row < base + b.slots)
    (hrest : b.Within rows base rest) : b.Within rows base (steps ++ rest) := by
  induction steps with
  | nil => exact hrest
  | cons step steps ih =>
    obtain ⟨hrotate, hrows⟩ := hsteps step List.mem_cons_self
    have hbase : b.nextBase base step = base := if_neg hrotate
    refine ⟨hrows, ?_⟩
    rw [hbase]
    exact ih fun step hstep => hsteps step (List.mem_cons_of_mem _ hstep)

theorem rotate_not_mem_rowSteps (rows inputRow : Nat) : .rotate ∉ b.rowSteps rows inputRow := by
  intro hmem
  obtain ⟨group, -, hgroup⟩ := List.mem_flatMap.1 hmem
  have hnone : (b.groupSteps (kernelRows b.filter.side rows inputRow) inputRow group).filterMap
      (fun step => if step = .rotate then some step else none) = [] :=
    b.filterMap_groupSteps rfl (fun _ _ _ _ => rfl) (fun _ _ _ => rfl) _ inputRow group
  exact absurd (List.filterMap_eq_nil_iff.1 hnone _ hgroup) (by simp)

theorem concerns_of_mem_rowSteps {inputRow row : Nat} {step : TileStep}
    (hstep : step ∈ b.rowSteps rows inputRow) (hrow : step.concerns row = true) :
    row ≤ inputRow ∧ inputRow < row + b.filter.side ∧ row < rows := by
  by_contra hnot
  have hnil := b.filter_rowSteps rows row inputRow
  rw [if_neg hnot] at hnil
  exact List.filter_eq_nil_iff.1 hnil step hstep hrow

/-- The steps of a block work on the rows of its slots. -/
theorem within_blockSteps {base count : Nat} (hcount : count ≤ b.block)
    (hrows : base + count ≤ rows) {step : TileStep}
    (hstep : step ∈ b.blockSteps rows ⟨base, count⟩) : step ≠ .rotate ∧
      ∀ row, step.concerns row = true → base ≤ row ∧ row < rows ∧ row < base + b.slots := by
  have hside := b.filter.carry_add_one
  have hslots : b.slots = b.block + b.filter.carry := rfl
  rcases List.mem_append.1 hstep with hfed | hstored
  · obtain ⟨inputRow, hinput, hmem⟩ := List.mem_flatMap.1 hfed
    have hinput : base + b.filter.carry ≤ inputRow ∧
        inputRow < base + b.filter.carry + count := List.mem_range'_1.1 hinput
    refine ⟨fun h => b.rotate_not_mem_rowSteps rows inputRow (h ▸ hmem), fun row hrow => ?_⟩
    have := b.concerns_of_mem_rowSteps hmem hrow
    omega
  · obtain ⟨stored, hmem, rfl⟩ := List.mem_map.1 hstored
    have hmem : base ≤ stored ∧ stored < base + count := List.mem_range'_1.1 hmem
    refine ⟨nofun, fun row hrow => ?_⟩
    obtain rfl : stored = row := beq_iff_eq.1 hrow
    omega

theorem within_blocksSteps {base : Nat} (hbase : base ≤ rows) :
    b.Within rows base
      (b.blocksSteps rows (Schedule.startingAt b.block rows b.block_pos base)) := by
  induction base using Schedule.startingAt.induct b.block rows b.block_pos with
  | case1 base hlt ih =>
    have hrest := ih (by omega)
    rw [blocksSteps] at hrest
    rw [Schedule.startingAt, if_pos hlt, blocksSteps, List.flatMap_cons, List.append_assoc,
      List.append_assoc]
    refine b.within_append
      (fun step => b.within_blockSteps (Nat.le_refl b.block) (by omega))
      ⟨fun row hrow => absurd hrow Bool.false_ne_true, hrest⟩
  | case2 base hlast =>
    rw [Schedule.startingAt, if_neg hlast, blocksSteps, List.flatMap_nil, List.nil_append,
      ← List.append_nil (b.blockSteps _ _)]
    exact b.within_append (fun step => b.within_blockSteps (by omega) (by omega)) trivial

theorem within_scheduleSteps (rows : Nat) :
    b.Within rows 0 (b.scheduleSteps rows (Schedule.ofRows b.block rows b.block_pos)) := by
  refine b.within_append (fun step hstep => ?_) (b.within_blocksSteps (Nat.zero_le rows))
  obtain ⟨inputRow, hinput, hmem⟩ := List.mem_flatMap.1 hstep
  have hinput : inputRow < b.filter.carry := List.mem_range.1 hinput
  have hslots : b.slots = b.block + b.filter.carry := rfl
  refine ⟨fun h => b.rotate_not_mem_rowSteps rows inputRow (h ▸ hmem), fun row hrow => ?_⟩
  have := b.concerns_of_mem_rowSteps hmem hrow
  omega

/-- The first step that works on an output row replaces what its slot holds. -/
theorem find?_scheduleSteps (hgroups : 0 < b.groups) {row : Nat} (hrow : row < rows) :
    (b.scheduleSteps rows (Schedule.ofRows b.block rows b.block_pos)).find? (·.concerns row) =
      some (.contribute row 0 0 0) := by
  obtain ⟨side, hside⟩ := Nat.exists_eq_succ_of_ne_zero (Nat.pos_iff_ne_zero.1 b.filter.side_pos)
  obtain ⟨groups, hgroups⟩ := Nat.exists_eq_succ_of_ne_zero (Nat.pos_iff_ne_zero.1 hgroups)
  rw [← List.head?_filter, b.filter_scheduleSteps, if_pos hrow, rowLife, hside,
    List.range_succ_eq_map, List.flatMap_cons, rowPart, hgroups, List.range_succ_eq_map,
    List.flatMap_cons, hside, List.range_succ_eq_map]
  rfl

end Blocking

namespace Engine

variable {R : Regime} {b : Blocking} {job : Job R} {tap : Nat → Nat → Nat → R.Tap}
  {engine engine' started : Engine R b} {plane plane' : Array R.Output} {rows cols k : Nat}

/-- Follow the schedule of a tile up to the beginning of block number `k`. -/
def entering (job : Job R) (rows cols : Nat) (engine : Engine R b) (plane : Array R.Output)
    (k : Nat) : Except Fault (Engine R b × Array R.Output) := do
  let engine ← (List.range b.filter.carry).foldlM (feedRow job 0 rows) engine
  ((Schedule.ofRows b.block rows b.block_pos).steady.take k).foldlM (steadyBlock job rows cols)
    (engine, plane)

/-- A schedule goes on from each of its blocks. -/
theorem runSchedule_eq_entering (job : Job R) (rows cols : Nat) (engine : Engine R b)
    (plane : Array R.Output) (k : Nat) :
    runSchedule job rows cols (Schedule.ofRows b.block rows b.block_pos) engine plane =
      entering job rows cols engine plane k >>= fun state =>
        ((Schedule.ofRows b.block rows b.block_pos).steady.drop k).foldlM
          (steadyBlock job rows cols) state >>=
            finishBlock job rows cols (Schedule.ofRows b.block rows b.block_pos).drain := by
  rw [runSchedule, entering, bind_assoc]
  refine bind_congr fun engine' => ?_
  rw [← bind_assoc, ← List.foldlM_append, List.take_append_drop]

theorem entering_succ (hrows : 0 < rows)
    (hk : k < (Schedule.ofRows b.block rows b.block_pos).steady.length) :
    entering job rows cols engine plane (k + 1) =
      entering job rows cols engine plane k >>= fun state =>
        steadyBlock job rows cols state ⟨k * b.block, b.block⟩ := by
  rw [entering, entering, bind_assoc]
  refine bind_congr fun engine' => ?_
  rw [Schedule.steady_take_succ b.block_pos hrows hk, List.foldlM_append]
  exact bind_congr fun state => bind_pure _

/-- The steps before a block lead to its beginning. -/
theorem stepsBefore_foldlM (hrows : 0 < rows)
    (hk : k ≤ (Schedule.ofRows b.block rows b.block_pos).steady.length) :
    (b.stepsBefore rows k).foldlM (perform job cols) ⟨0, engine, plane⟩ =
      (fun state => ⟨k * b.block, state.1, state.2⟩) <$> entering job rows cols engine plane k := by
  have hside := b.filter.carry_add_one
  induction k with
  | zero =>
    have hreach : ∀ row ∈ List.range b.filter.carry, kernelRows b.filter.side rows row ≠ [] := by
      intro row hrow
      have hlt : row < b.filter.carry := List.mem_range.1 hrow
      exact kernelRows_ne_nil b.filter.side_pos hrows (by omega)
    rw [Blocking.stepsBefore, entering, List.take_zero, List.flatMap_nil, List.append_nil,
      rowSteps_foldlM job rows cols 0 plane hreach, Nat.zero_mul, map_bind, map_eq_pure_bind]
    rfl
  | succ k ih =>
    have hlt := Schedule.lt_sub_mul_of_lt b.block_pos hrows hk
    rw [b.stepsBefore_succ hrows hk, List.foldlM_append, ih (Nat.le_of_lt hk),
      entering_succ hrows hk, map_bind, bind_map_left]
    refine bind_congr fun state => ?_
    rw [List.foldlM_append, blockSteps_foldlM job rows cols state.2 ⟨k * b.block, b.block⟩
      (fun row => RowBlock.kernelRows_ne_nil b.filter.carry_add_one
        (show k * b.block + b.block ≤ rows by omega)), steadyBlock, map_bind, bind_map_left,
      Nat.succ_mul]
    rfl

/-! ### The slots -/

theorem finishBlock_carries (hR : R.Sound b.filter) (hjob : job.Feeds b tap)
    (hrows : 0 < job.rows b) {base count : Nat} (hcount : count ≤ b.block)
    (hbase : base + count ≤ job.rows b) (h : engine.Carries job tap base (base + b.filter.carry))
    (hfinish : finishBlock job (job.rows b) cols ⟨base, count⟩ (engine, plane) =
      .ok (engine', plane')) :
    engine'.Carries job tap base (base + b.filter.carry + count) := by
  have hside := b.filter.carry_add_one
  have hrows' : job.rows b = job.planes.height + 1 - b.filter.side := rfl
  have hslots : b.slots = b.block + b.filter.carry := rfl
  obtain ⟨fed, hfed, hcarries⟩ := feedRows_carries hR hjob count (Or.inr (Nat.le_refl _))
    (by omega) (by omega) h
  obtain ⟨engine₁, hengine₁, hstore⟩ := bind_eq_ok_iff.1 hfinish
  obtain rfl : fed = engine₁ := Except.ok.inj (hfed.symm.trans hengine₁)
  obtain ⟨plane₁, -, hresult⟩ := bind_eq_ok_iff.1 hstore
  obtain ⟨rfl, -⟩ := Prod.mk.inj (Except.ok.inj hresult)
  exact hcarries

/-- Feeding rows before the first block, finishing a block and rotating the slots keep the
invariant, so it holds at the beginning of every block. -/
theorem entering_carries (hR : R.Sound b.filter) (hjob : job.Feeds b tap) (hrows : 0 < job.rows b)
    {cell : Nat → Nat → R.Cell} (hstarted : started.HasCells job.tile cell)
    (hk : k ≤ (Schedule.ofRows b.block (job.rows b) b.block_pos).steady.length)
    (h : entering job (job.rows b) cols started plane k = .ok (engine', plane')) :
    engine'.Carries job tap (k * b.block) (k * b.block + b.filter.carry) := by
  have hside := b.filter.carry_add_one
  have hrows' : job.rows b = job.planes.height + 1 - b.filter.side := rfl
  induction k generalizing engine' plane' with
  | zero =>
    obtain ⟨fed, hfed, hcarries⟩ := feedRows_carries hR hjob b.filter.carry (Or.inl rfl)
      (by rw [Blocking.slots]; omega) (by omega) hstarted.carries
    obtain ⟨engine₁, hengine₁, hresult⟩ := bind_eq_ok_iff.1 h
    rw [List.range_eq_range'] at hengine₁
    obtain rfl : fed = engine₁ := Except.ok.inj (hfed.symm.trans hengine₁)
    obtain ⟨rfl, -⟩ := Prod.mk.inj (Except.ok.inj hresult)
    rw [Nat.zero_mul]
    exact hcarries
  | succ k ih =>
    have hlt := Schedule.lt_sub_mul_of_lt b.block_pos hrows hk
    rw [entering_succ hrows hk] at h
    obtain ⟨⟨engine₁, plane₁⟩, hentry, hblock⟩ := bind_eq_ok_iff.1 h
    obtain ⟨⟨engine₂, plane₂⟩, hfinish, hrotate⟩ := bind_eq_ok_iff.1 hblock
    obtain ⟨rfl, -⟩ := Prod.mk.inj (Except.ok.inj hrotate)
    have hcarries := finishBlock_carries hR hjob hrows (Nat.le_refl b.block) (by omega)
      (ih (Nat.le_of_lt hk) hentry) hfinish
    rw [Nat.succ_mul]
    exact rotate_carries hcarries

/-- What feeding needs is there in every run that feeds the rows before the first block. -/
theorem feeds_of_entering {precision : Precision} {job : Job precision.regime}
    {tap : Nat → Nat → Nat → precision.regime.Tap} {started engine' : Engine precision.regime b}
    {plane plane' : Array precision.regime.Output} (hidle : precision.regime.idle = false)
    (hgroups : 0 < b.groups) (htaps : b.HasTaps job.taps tap) (hrows : 0 < rows)
    (hcarry : 0 < b.filter.carry) (hwidth : 0 < job.tile.outWidth)
    {cell : Nat → Nat → precision.regime.Cell} (hstarted : started.HasCells job.tile cell)
    (h : entering job rows cols started plane k = .ok (engine', plane')) :
    precision.regime.operable = true ∧ job.Feeds b tap := by
  obtain ⟨_, hfed, -⟩ := bind_eq_ok_iff.1 h
  obtain ⟨engine₁, hfirst⟩ := first_of_foldlM_range hfed hcarry
  obtain ⟨slot, hslot, f, acc, register, hregister, hacc⟩ :=
    contribution_of_feedRow hfirst hrows hgroups
  have hactive := hstarted.slot_width slot hslot
  have hle : job.tile.outWidth ≤ job.tile.inWidth := by
    obtain ⟨hcovers, -⟩ := Accumulator.tabulate_of_contribute hacc hidle
    rwa [hregister, hstarted.register_width, hactive] at hcovers
  refine ⟨Accumulator.operable_of_contribute hacc hidle (hactive ▸ hwidth), htaps, hle, ?_⟩
  intro group hgroup row hrow
  have hreadable := readable_of_feedRow hfirst hrows group hgroup
  rw [hstarted.register_width] at hreadable
  exact precision.readable_of_first_row (hwidth.trans_le hle) hrow hreadable

/-! ### Widths and rows of single steps -/

theorem runSchedule_of_runTile {result : Engine R b × Array R.Output × TileStats}
    (hstarted : engine.setTile job.tile = .ok started) (h : engine.runTile job plane = .ok result) :
    ∃ state, runSchedule job (job.rows b) (job.cols b)
      (Schedule.ofRows b.block (job.rows b) b.block_pos) started plane = .ok state := by
  simp only [runTile, bind_eq_ok_iff] at h
  obtain ⟨rows, hrows, cols, hcols, _, -, started', hstarted', state, hschedule, -⟩ := h
  obtain ⟨-, -, rfl⟩ := Size.windowStarts_eq_ok_iff.1 hrows
  obtain ⟨-, -, rfl⟩ := Size.windowStarts_eq_ok_iff.1 hcols
  obtain rfl : started = started' := Except.ok.inj (hstarted.symm.trans hstarted')
  exact ⟨state, hschedule⟩

/-- All accumulators have the width `width`. -/
def HasWidth (engine : Engine R b) (width : Nat) : Prop :=
  ∀ slot (_ : slot < b.slots), engine.slots[slot].width = width

theorem HasWidth.updateRow {width base row : Nat}
    {f : Accumulator R b.maxLanes → Except Fault (Accumulator R b.maxLanes)}
    (h : engine.HasWidth width) (hf : ∀ acc acc', f acc = .ok acc' → acc'.width = acc.width)
    (hok : engine.updateRow base row f = .ok engine') : engine'.HasWidth width := by
  obtain ⟨hrow, -, acc, hacc, rfl⟩ := slots_of_updateRow hok
  intro slot hslot
  simp only [Vector.getElem_set]
  split
  · exact (hf _ _ hacc).trans (h _ _)
  · exact h slot hslot

/-- No step changes the width of an accumulator. -/
theorem HasWidth.perform {width : Nat} {state state' : TileState R b} {step : TileStep}
    (h : state.engine.HasWidth width) (hok : perform job cols state step = .ok state') :
    state'.engine.HasWidth width := by
  cases step with
  | load row group =>
    obtain ⟨register, -, hstate⟩ := bind_eq_ok_iff.1 hok
    rw [← Except.ok.inj hstate]
    exact h
  | contribute row kernelRow group column =>
    obtain ⟨engine₁, hcontribute, hstate⟩ := bind_eq_ok_iff.1 hok
    obtain ⟨tap, -, hupdate⟩ := updateRow_of_contribute hcontribute
    rw [← Except.ok.inj hstate]
    refine h.updateRow (fun acc acc' hacc => ?_) hupdate
    split at hacc
    · exact Accumulator.width_of_contribute hacc
    · exact Accumulator.width_of_contribute hacc
  | slide =>
    rw [← Except.ok.inj hok]
    exact h
  | endGroup row kernelRow group =>
    obtain ⟨engine₁, hend, hstate⟩ := bind_eq_ok_iff.1 hok
    rw [← Except.ok.inj hstate]
    exact h.updateRow (fun acc acc' hacc => by rw [← Except.ok.inj hacc]; rfl) hend
  | store row =>
    obtain ⟨_, -, hstore⟩ := bind_eq_ok_iff.1 hok
    obtain ⟨plane, -, hstate⟩ := bind_eq_ok_iff.1 hstore
    rw [← Except.ok.inj hstate]
    exact h
  | rotate =>
    rw [← Except.ok.inj hok]
    intro slot hslot
    simp only [rotate, Vector.getElem_ofFn]
    exact h _ _

/-- Only a rotation moves the first slot to another row. -/
theorem base_of_perform {state state' : TileState R b} {step : TileStep}
    (h : perform job cols state step = .ok state') :
    state'.base = b.nextBase state.base step := by
  cases step with
  | load | contribute | endGroup =>
    obtain ⟨_, -, hstate⟩ := bind_eq_ok_iff.1 h
    rw [← Except.ok.inj hstate]
    rfl
  | slide | rotate =>
    rw [← Except.ok.inj h]
    rfl
  | store row =>
    obtain ⟨_, -, hstore⟩ := bind_eq_ok_iff.1 h
    obtain ⟨plane, -, hstate⟩ := bind_eq_ok_iff.1 hstore
    rw [← Except.ok.inj hstate]
    rfl

/-- A step that is reached works on a row in progress. -/
theorem row_of_within {state state' : TileState R b} {before after : List TileStep}
    {step : TileStep} (hwithin : b.Within rows state.base (before ++ step :: after))
    (hbefore : before.foldlM (perform job cols) state = .ok state') {row : Nat}
    (hrow : step.concerns row = true) :
    state'.base ≤ row ∧ row < rows ∧ row < state'.base + b.slots := by
  induction before generalizing state with
  | nil =>
    obtain rfl := Except.ok.inj hbefore
    exact hwithin.1 row hrow
  | cons first before ih =>
    obtain ⟨state₁, hfirst, hrest⟩ := foldlM_cons_eq_ok hbefore
    have htail := hwithin.2
    rw [← base_of_perform hfirst] at htail
    exact ih htail hrest

/-- What holds when block number `k` of a tile begins. -/
structure Entry (job : Job R) (tap : Nat → Nat → Nat → R.Tap) (started : Engine R b)
    (plane : Array R.Output) (k : Nat) (engine : Engine R b) (plane' : Array R.Output) : Prop where
  /-- The first slot belongs to the first row of the block. -/
  reached : (b.stepsBefore (job.rows b) k).foldlM (perform job (job.cols b)) ⟨0, started, plane⟩ =
    .ok ⟨k * b.block, engine, plane'⟩
  /-- The input rows before those of the block have been fed, and no others. -/
  loaded_eq : (b.stepsBefore (job.rows b) k).filterMap TileStep.loaded? =
    (List.range (k * b.block + b.filter.carry)).flatMap fun inputRow =>
      (List.range b.groups).map (inputRow, ·)
  slot_width : ∀ slot (_ : slot < b.slots), engine.slots[slot].width = job.tile.outWidth
  /-- Each of the first slots holds what its output row has received of them, whatever it held
  before. -/
  slot_lane : ∀ slot (_ : slot < b.slots), slot < b.filter.carry →
    k * b.block + slot < job.rows b → ∀ x < job.tile.outWidth,
      (∀ start, engine.slots[slot].lane x =
        (job.terms tap (k * b.block + slot) x).addRows b.filter b.groups
          (b.filter.carry - slot) start) ∧
      R.settled (engine.slots[slot].lane x) = true

theorem entry_of_entering (precision : Precision) {job : Job precision.regime}
    {tap : Nat → Nat → Nat → precision.regime.Tap} {started engine' : Engine precision.regime b}
    {plane plane' : Array precision.regime.Output} (hgroups : 0 < b.groups)
    (htaps : b.HasTaps job.taps tap) (hrows : 0 < job.rows b)
    {cell : Nat → Nat → precision.regime.Cell} (hstarted : started.HasCells job.tile cell)
    (hk : k ≤ (Schedule.ofRows b.block (job.rows b) b.block_pos).steady.length)
    (h : entering job (job.rows b) (job.cols b) started plane k = .ok (engine', plane')) :
    started.Entry job tap plane k engine' plane' := by
  have hreached : (b.stepsBefore (job.rows b) k).foldlM (perform job (job.cols b))
      ⟨0, started, plane⟩ = .ok ⟨k * b.block, engine', plane'⟩ := by
    rw [stepsBefore_foldlM hrows hk, h]
    rfl
  have hstart : started.HasWidth job.tile.outWidth := hstarted.slot_width
  have hwidth : engine'.HasWidth job.tile.outWidth :=
    (rounds_of_foldlM (fun state : TileState precision.regime b =>
      state.engine.HasWidth job.tile.outWidth) (fun _ _ _ hstate hstep => hstate.perform hstep)
      hstart hreached).1
  refine ⟨hreached, b.loaded_stepsBefore hrows hk, hwidth, ?_⟩
  intro slot hslot hcarry hrow x hx
  cases hidle : precision.regime.idle with
  | true =>
    -- without totals the engine can get here, but no cell holds anything
    obtain ⟨hcells, hsettled⟩ := precision.subsingleton_of_idle hidle
    exact ⟨fun start => hcells.elim _ _, hsettled _⟩
  | false =>
    have hcolumns : 0 < job.tile.outWidth := Nat.zero_lt_of_lt hx
    obtain ⟨hoperable, hjob⟩ := feeds_of_entering hidle hgroups htaps hrows
      (Nat.zero_lt_of_lt hcarry) hcolumns hstarted h
    have hR := precision.sound_of_operable b.filter hoperable
    have hside := b.filter.carry_add_one
    obtain ⟨cell', hcell, hcarries⟩ := entering_carries hR hjob hrows hstarted hk h
    obtain ⟨start', hstart'⟩ := hcarries slot hslot x hx hrow
    rw [show min b.filter.side (k * b.block + b.filter.carry - (k * b.block + slot)) =
      b.filter.carry - slot by omega] at hstart'
    rw [hcell.slot_lane slot hslot x hx, hstart']
    refine ⟨fun start => ?_, ?_⟩
    · exact Regime.Terms.addRows_eq_of_pos _ (Nat.sub_pos_of_lt hcarry) hgroups _ _
    · exact hR.settled_addRows _ hgroups (Nat.sub_pos_of_lt hcarry) _

/-- In every run of a tile, by an engine in any state, the first slots hold the beginnings of their
output rows whenever a block begins. The run can be one that ends with a fault; a run that is
completed gets to the beginning of every block. The first step that works on an output row replaces
what its slot holds, and no step works on a row that is stored already, that does not exist, or that
has no slot. -/
theorem runTile_carries (precision : Precision) {b : Blocking} {job : Job precision.regime}
    {tap : Nat → Nat → Nat → precision.regime.Tap} (hgroups : 0 < b.groups)
    (htaps : b.HasTaps job.taps tap) (hrows : 0 < job.rows b)
    {engine started : Engine precision.regime b} (hstarted : engine.setTile job.tile = .ok started)
    {plane : Array precision.regime.Output} :
    let schedule := Schedule.ofRows b.block (job.rows b) b.block_pos
    let steps := b.scheduleSteps (job.rows b) schedule
    (∀ k ≤ schedule.steady.length,
      (runSchedule job (job.rows b) (job.cols b) schedule started plane =
        entering job (job.rows b) (job.cols b) started plane k >>= fun state =>
          (schedule.steady.drop k).foldlM (steadyBlock job (job.rows b) (job.cols b)) state >>=
            finishBlock job (job.rows b) (job.cols b) schedule.drain) ∧
      (∀ block, schedule.blocks[k]? = some block → block.base = k * b.block) ∧
      ∀ engine' plane', entering job (job.rows b) (job.cols b) started plane k =
        .ok (engine', plane') → started.Entry job tap plane k engine' plane') ∧
    (∀ result, engine.runTile job plane = .ok result → ∀ k ≤ schedule.steady.length,
      ∃ engine' plane', entering job (job.rows b) (job.cols b) started plane k =
        .ok (engine', plane')) ∧
    (∀ row < job.rows b, steps.find? (·.concerns row) = some (.contribute row 0 0 0)) ∧
    ∀ before step after state, steps = before ++ step :: after →
      before.foldlM (perform job (job.cols b)) ⟨0, started, plane⟩ = .ok state →
      ∀ row, step.concerns row = true →
        state.base ≤ row ∧ row < job.rows b ∧ row < state.base + b.slots := by
  intro schedule steps
  obtain ⟨cell, hcells⟩ := hasCells_of_setTile hstarted
  refine ⟨fun k hk => ⟨runSchedule_eq_entering .., fun block => ?base, ?entry⟩, ?reaches, ?first,
    ?rows⟩
  case base => exact Schedule.base_of_getElem? b.block_pos hrows
  case entry =>
    intro engine' plane' h
    exact entry_of_entering precision hgroups htaps hrows hcells hk h
  case reaches =>
    intro result hresult k hk
    obtain ⟨final, hfinal⟩ := runSchedule_of_runTile hstarted hresult
    rw [runSchedule_eq_entering job _ _ _ _ k] at hfinal
    obtain ⟨⟨engine', plane'⟩, hentry, -⟩ := bind_eq_ok_iff.1 hfinal
    exact ⟨engine', plane', hentry⟩
  case first => exact fun row hrow => b.find?_scheduleSteps hgroups hrow
  case rows =>
    intro before step after state hsteps hbefore row hrow
    have hwithin := b.within_scheduleSteps (job.rows b)
    rw [show b.scheduleSteps (job.rows b) (Schedule.ofRows b.block (job.rows b) b.block_pos) =
      before ++ step :: after from hsteps] at hwithin
    exact row_of_within hwithin hbefore hrow

/-- Blocks of one row of a filter with three: when the second block begins, its row has received two
filter rows with six products each, and the narrow fields are empty. -/
theorem runTile_carries_packed :
    ∃ started engine' : Engine (Precision.packed .bits16 2 2 none).regime
        ⟨.three, 1, 1, 3, by decide, by decide⟩, ∃ plane',
      (fresh _ _).setTile ⟨0, 3, 1⟩ = .ok started ∧
      entering ⟨⟨Array.replicate 30 1#8, 2, 5, 3, rfl⟩, Array.replicate 9 0x0101#16, ⟨0, 3, 1⟩⟩
        3 1 started #[0#32, 0#32, 0#32] 1 = .ok (engine', plane') ∧
      engine'.slots[0].lane 0 = ⟨0#16, 12#32⟩ := by
  have hjob : Job.Fits (R := (Precision.packed .bits16 2 2 none).regime)
      ⟨⟨Array.replicate 30 1#8, 2, 5, 3, rfl⟩, Array.replicate 9 0x0101#16, ⟨0, 3, 1⟩⟩
      ⟨.three, 1, 1, 3, by decide, by decide⟩ fun _ _ _ => 0x0101#16 :=
    ⟨⟨by decide, by decide, by decide, by decide, by decide⟩, ⟨rfl, by decide⟩,
      ⟨by decide, by decide, by decide, by decide⟩, by decide⟩
  obtain ⟨engine₁, plane₁, hok, -⟩ := runTile_ok
    ((Precision.packed .bits16 2 2 none).sound_of_operable .three rfl) hjob (fresh _ _)
    (show #[0#32, 0#32, 0#32].size = _ from rfl)
  obtain ⟨hentries, hreaches, -⟩ := runTile_carries (.packed .bits16 2 2 none) (by decide)
    hjob.toHasTaps (by decide) (show (fresh _ _).setTile _ = .ok _ from rfl)
  have hsecond : 1 ≤ (Schedule.ofRows 1 3 (by decide)).steady.length := by
    rw [Schedule.ofRows_eq (by decide) (by decide)]
    decide
  obtain ⟨engine', plane', hentering⟩ := hreaches _ hok 1 hsecond
  obtain ⟨-, -, hentry⟩ := hentries 1 hsecond
  have hlane := (hentry engine' plane' hentering).slot_lane 0 (by decide) (by decide) (by decide) 0
    (by decide)
  exact ⟨_, engine', plane', rfl, hentering, hlane.1 ⟨0#16, 0#32⟩⟩

end Engine

end DirectConv
