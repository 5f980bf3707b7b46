import DirectConv.Proofs.Engine.Row

/-!
# What a tile asks for

The engine of a precision that was never validated can meet operands that it cannot multiply, or
cells that have no total, and an engine with more groups than the input has can meet groups that it
cannot load. It finds out at the first input row, which contributes to the first output row, or at
the latest when the last rows are stored. So a tile that was computed shows that lanes and taps can
be multiplied and that all groups can be loaded.

## Main statements

- `DirectConv.Engine.operable_of_runTile`: a tile of some width was computed by multiplications
- `DirectConv.Engine.readable_of_runTile`: all groups were loaded
- `DirectConv.Engine.sizes_of_runTile`, `DirectConv.Engine.extents_of_runTile`,
  `DirectConv.Engine.suits_of_runTile`: a tile was computed for a plane, taps and an input of the
  right sizes
-/

namespace DirectConv

namespace Accumulator

variable {R : Regime} {n m : Nat} {acc acc' : Accumulator R n} {f : R.Cell → R.Lane → R.Cell}
  {register : Register R.Lane m}

theorem operable_of_contribute (h : acc.contribute f register = .ok acc') (hidle : R.idle = false)
    (hwidth : 0 < acc.width) : R.operable = true := by
  rw [contribute, hidle] at h
  simp only [Bool.false_eq_true, if_false, bind_eq_ok_iff] at h
  obtain ⟨_, hrequire, -⟩ := h
  have hcondition := require_eq_ok_iff.1 hrequire
  rw [Bool.or_eq_true, beq_iff_eq] at hcondition
  exact hcondition.resolve_right (Nat.ne_of_gt hwidth)

/-- A register contributes to the active totals of accumulators that are no wider. -/
theorem tabulate_of_contribute (h : acc.contribute f register = .ok acc')
    (hidle : R.idle = false) : acc.width ≤ register.width ∧
      acc' = Register.tabulate acc fun i _ => f (acc.lane i) (register.lane i) := by
  rw [contribute, hidle] at h
  simp only [Bool.false_eq_true, if_false, bind_eq_ok_iff] at h
  obtain ⟨_, -, hcombine⟩ := h
  rw [Register.combine] at hcombine
  split at hcombine
  · rename_i hwidth
    exact ⟨hwidth, (Except.ok.inj hcombine).symm⟩
  · cases hcombine

theorem width_of_contribute (h : acc.contribute f register = .ok acc') : acc'.width = acc.width := by
  cases hidle : R.idle with
  | true =>
    rw [contribute, hidle] at h
    rw [← Except.ok.inj h]
  | false =>
    obtain ⟨-, rfl⟩ := tabulate_of_contribute h hidle
    rfl

end Accumulator

namespace Engine

variable {R : Regime} {b : Blocking} {job : Job R} {engine engine' : Engine R b} {rows cols : Nat}

/-- An update was made in the slot of its row. -/
theorem slots_of_updateRow {base row : Nat}
    {f : Accumulator R b.maxLanes → Except Fault (Accumulator R b.maxLanes)}
    (h : engine.updateRow base row f = .ok engine') :
    ∃ (hslot : row - base < b.slots), base ≤ row ∧ ∃ acc,
      f engine.slots[row - base] = .ok acc ∧
        engine' = { engine with slots := engine.slots.set (row - base) acc hslot } := by
  rw [updateRow] at h
  split at h
  · rename_i hslot
    obtain ⟨acc, hacc, hset⟩ := bind_eq_ok_iff.1 h
    exact ⟨hslot.2, hslot.1, acc, hacc, (Except.ok.inj hset).symm⟩
  · cases h

/-- A contribution was made with the tap of its place. -/
theorem updateRow_of_contribute {base row group column kernelRow : Nat}
    (h : contribute job base row group column engine kernelRow = .ok engine') :
    ∃ tap, job.taps[(group * b.filter.side + kernelRow) * b.filter.side + column]? = some tap ∧
      engine.updateRow base (row - kernelRow) (fun acc =>
        if kernelRow = 0 ∧ group = 0 ∧ column = 0 then acc.first engine.register tap
        else acc.later engine.register tap) = .ok engine' := by
  rw [contribute] at h
  split at h
  · cases h
  · rename_i tap htap
    exact ⟨tap, htap, h⟩

theorem contribution_of_contribute {base row group column kernelRow : Nat}
    (h : contribute job base row group column engine kernelRow = .ok engine') :
    ∃ (k : Nat) (_ : k < b.slots), ∃ f acc',
      engine.slots[k].contribute f engine.register = .ok acc' := by
  obtain ⟨tap, -, hupdate⟩ := updateRow_of_contribute h
  obtain ⟨hslot, -, acc, hacc, -⟩ := slots_of_updateRow hupdate
  split at hacc
  · exact ⟨_, hslot, _, acc, hacc⟩
  · exact ⟨_, hslot, _, acc, hacc⟩

/-- The first input row begins with a contribution, by a register as wide as before. -/
theorem contribution_of_feedRow (h : feedRow job 0 rows engine 0 = .ok engine') (hrows : 0 < rows)
    (hgroups : 0 < b.groups) :
    ∃ (k : Nat) (_ : k < b.slots), ∃ f acc', ∃ register : Register R.Lane b.maxLanes,
      register.width = engine.register.width ∧
        engine.slots[k].contribute f register = .ok acc' := by
  rw [feedRow, kernelRows_zero hrows] at h
  obtain ⟨_, hgroup⟩ := first_of_foldlM_range h hgroups
  simp only [feedGroup, bind_eq_ok_iff] at hgroup
  obtain ⟨register, hload, _, hcolumns, -⟩ := hgroup
  obtain ⟨_, hcolumn⟩ := first_of_foldlM_range hcolumns b.filter.side_pos
  obtain ⟨_, hcontributions, -⟩ := bind_eq_ok_iff.1 hcolumn
  obtain ⟨_, hcontribute, -⟩ := foldlM_cons_eq_ok hcontributions
  obtain ⟨k, hk, f, acc', hacc⟩ := contribution_of_contribute hcontribute
  obtain ⟨-, hregister⟩ := Regime.loadRow_eq_ok_iff.1 hload
  exact ⟨k, hk, f, acc', register, hregister ▸ rfl, hacc⟩

theorem operable_of_feedRow (h : feedRow job 0 rows engine 0 = .ok engine') (hrows : 0 < rows)
    (hgroups : 0 < b.groups) (hidle : R.idle = false)
    (hwidth : ∀ k (_ : k < b.slots), 0 < engine.slots[k].width) : R.operable = true := by
  obtain ⟨k, hk, f, acc', register, -, hacc⟩ := contribution_of_feedRow h hrows hgroups
  exact Accumulator.operable_of_contribute hacc hidle (hwidth k hk)

theorem register_of_updateRow {base row : Nat}
    {f : Accumulator R b.maxLanes → Except Fault (Accumulator R b.maxLanes)}
    (h : engine.updateRow base row f = .ok engine') : engine'.register = engine.register := by
  obtain ⟨hslot, -, acc, -, rfl⟩ := slots_of_updateRow h
  rfl

theorem register_of_contribute {base row group column kernelRow : Nat}
    (h : contribute job base row group column engine kernelRow = .ok engine') :
    engine'.register = engine.register := by
  obtain ⟨tap, -, hupdate⟩ := updateRow_of_contribute h
  exact register_of_updateRow hupdate

/-- A filter column can slide the register, but does not change its width. -/
theorem width_of_feedColumn {base row group column : Nat} {kernelRows : List Nat}
    (h : feedColumn job base row group kernelRows engine column = .ok engine') :
    engine'.register.width = engine.register.width := by
  obtain ⟨engine₁, hcontributions, hslide⟩ := bind_eq_ok_iff.1 h
  have hregister : engine₁.register = engine.register :=
    (rounds_of_foldlM (fun e : Engine R b => e.register = engine.register)
      (fun _ _ _ he hstep => (register_of_contribute hstep).trans he) rfl hcontributions).1
  rw [← hregister]
  split at hslide
  · rw [← Except.ok.inj hslide]
    exact Register.width_slideDown _ _ _
  · rw [← Except.ok.inj hslide]

/-- A group that was applied was loaded, and the register is as wide as before. -/
theorem readable_of_feedGroup {base row group : Nat} {kernelRows : List Nat}
    (h : feedGroup job base row kernelRows engine group = .ok engine') :
    R.readable job.planes group row job.tile.col engine.register.width = true ∧
      engine'.register.width = engine.register.width := by
  simp only [feedGroup, bind_eq_ok_iff] at h
  obtain ⟨register, hload, engine₁, hcolumns, hends⟩ := h
  obtain ⟨hreadable, hregister⟩ := Regime.loadRow_eq_ok_iff.1 hload
  have hloaded : register.width = engine.register.width := hregister ▸ rfl
  refine ⟨hreadable, ?_⟩
  have hwidth : engine₁.register.width = register.width :=
    (rounds_of_foldlM (fun e : Engine R b => e.register.width = register.width)
      (fun _ _ _ he hstep => (width_of_feedColumn hstep).trans he) rfl hcolumns).1
  have hend : engine'.register = engine₁.register :=
    (rounds_of_foldlM (fun e : Engine R b => e.register = engine₁.register)
      (fun _ _ _ he hstep => (register_of_updateRow hstep).trans he) rfl hends).1
  rw [hend, hwidth, hloaded]

/-- The first input row loads every group. -/
theorem readable_of_feedRow (h : feedRow job 0 rows engine 0 = .ok engine') (hrows : 0 < rows) :
    ∀ group < b.groups,
      R.readable job.planes group 0 job.tile.col engine.register.width = true := by
  rw [feedRow, kernelRows_zero hrows] at h
  intro group hgroup
  obtain ⟨-, hrounds⟩ :=
    rounds_of_foldlM (fun e : Engine R b => e.register.width = engine.register.width)
      (fun _ _ _ he hstep => (readable_of_feedGroup hstep).2.trans he) rfl h
  obtain ⟨engine₁, engine₂, hwidth, hround⟩ := hrounds group (List.mem_range.2 hgroup)
  rw [← hwidth]
  exact (readable_of_feedGroup hround).1

/-- Cells that have no total cannot be stored. -/
theorem idle_of_finishBlock {block : RowBlock} {state result : Engine R b × Array R.Output}
    (h : finishBlock job rows cols block state = .ok result) (hrows : 0 < block.rows) :
    R.idle = false := by
  simp only [finishBlock, bind_eq_ok_iff] at h
  obtain ⟨_, -, _, hstore, -⟩ := h
  obtain ⟨_, hfirst⟩ := first_of_foldlM_range hstore hrows
  rw [storeRow] at hfirst
  split at hfirst
  · obtain ⟨_, hrequire, -⟩ := bind_eq_ok_iff.1 hfirst
    have hcondition := require_eq_ok_iff.1 hrequire
    simp only [Bool.and_eq_true, Bool.not_eq_true'] at hcondition
    exact hcondition.1.1
  · cases hfirst

theorem feedRow_of_finishBlock {count : Nat} {state result : Engine R b × Array R.Output}
    (h : finishBlock job rows cols ⟨0, count⟩ state = .ok result) (hcount : 0 < count)
    (hcarry : b.filter.carry = 0) : ∃ engine', feedRow job 0 rows state.1 0 = .ok engine' := by
  obtain ⟨_, hfed, -⟩ := bind_eq_ok_iff.1 h
  rw [RowBlock.fed, hcarry] at hfed
  exact first_of_foldlM_range' hfed hcount

/-- Whatever the schedule is, the first input row comes first. -/
theorem feedRow_of_runSchedule {plane : Array R.Output} {result : Engine R b × Array R.Output}
    (h : runSchedule job rows cols (Schedule.ofRows b.block rows b.block_pos) engine plane =
      .ok result) (hrows : 0 < rows) : ∃ engine', feedRow job 0 rows engine 0 = .ok engine' := by
  simp only [runSchedule, bind_eq_ok_iff] at h
  obtain ⟨engine₁, hpreload, state, hsteady, hdrain⟩ := h
  by_cases hcarry : b.filter.carry = 0
  · -- nothing is read before the first block
    rw [hcarry] at hpreload
    obtain rfl : engine = engine₁ := Except.ok.inj hpreload
    rw [Schedule.ofRows, Schedule.startingAt] at hsteady hdrain
    by_cases hblock : b.block < rows - 0
    · rw [if_pos hblock] at hsteady
      obtain ⟨_, hfirst, -⟩ := foldlM_cons_eq_ok hsteady
      obtain ⟨_, hfinish, -⟩ := bind_eq_ok_iff.1 hfirst
      exact feedRow_of_finishBlock hfinish b.block_pos hcarry
    · rw [if_neg hblock] at hsteady hdrain
      obtain rfl : (engine, plane) = state := Except.ok.inj hsteady
      exact feedRow_of_finishBlock hdrain hrows hcarry
  · exact first_of_foldlM_range hpreload (Nat.pos_of_ne_zero hcarry)

variable {plane : Array R.Output} {result : Engine R b × Array R.Output × TileStats}

/-- The plane has the size of the output, which is not empty, and the taps are complete. -/
theorem sizes_of_runTile (h : engine.runTile job plane = .ok result) :
    0 < job.planes.height + 1 - b.filter.side ∧
      plane.size = (job.planes.height + 1 - b.filter.side) *
        (job.planes.width + 1 - b.filter.side) ∧
      job.taps.size = b.groups * b.filter.taps := by
  simp only [runTile, bind_eq_ok_iff] at h
  obtain ⟨rows, hrows, cols, hcols, _, hrequire, -⟩ := h
  obtain ⟨-, -, rfl⟩ := Size.windowStarts_eq_ok_iff.1 hrows
  obtain ⟨-, -, rfl⟩ := Size.windowStarts_eq_ok_iff.1 hcols
  have hcondition := require_eq_ok_iff.1 hrequire
  simp only [Bool.and_eq_true, decide_eq_true_eq, beq_iff_eq] at hcondition
  exact ⟨hcondition.1.1, hcondition.1.2, hcondition.2⟩

/-- The numbers of rows and columns of the output plane are counted without overflow. -/
theorem extents_of_runTile (h : engine.runTile job plane = .ok result) :
    job.planes.height + 1 < Size.bound ∧ job.planes.width + 1 < Size.bound := by
  simp only [runTile, bind_eq_ok_iff] at h
  obtain ⟨rows, hrows, cols, hcols, -⟩ := h
  exact ⟨(Size.windowStarts_eq_ok_iff.1 hrows).1, (Size.windowStarts_eq_ok_iff.1 hcols).1⟩

/-- A tile that was computed began with the first input row, in an engine of the width of the
tile. -/
theorem feedRow_of_runTile (h : engine.runTile job plane = .ok result) :
    ∃ (rows : Nat) (started engine' : Engine R b) (cell : Nat → Nat → R.Cell),
      0 < rows ∧ started.HasCells job.tile cell ∧
        feedRow job 0 rows started 0 = .ok engine' ∧ R.idle = false := by
  simp only [runTile, bind_eq_ok_iff] at h
  obtain ⟨rows, -, cols, -, _, hrequire, started, hstarted, ⟨engine₁, plane₁⟩, hschedule, -⟩ := h
  have hcondition := require_eq_ok_iff.1 hrequire
  simp only [Bool.and_eq_true, decide_eq_true_eq] at hcondition
  have hrows : 0 < rows := hcondition.1.1
  obtain ⟨cell, hcells⟩ := hasCells_of_setTile hstarted
  obtain ⟨engine₂, hfirst⟩ := feedRow_of_runSchedule hschedule hrows
  refine ⟨rows, started, engine₂, cell, hrows, hcells, hfirst, ?_⟩
  simp only [runSchedule, bind_eq_ok_iff] at hschedule
  obtain ⟨_, -, _, -, hdrain⟩ := hschedule
  exact idle_of_finishBlock hdrain (Schedule.drain_rows b.block_pos hrows).1

/-- A tile of some width is only computed where lanes and taps can be multiplied. -/
theorem operable_of_runTile (h : engine.runTile job plane = .ok result)
    (hwidth : 0 < job.tile.outWidth) (hgroups : 0 < b.groups) : R.operable = true := by
  obtain ⟨rows, started, engine₁, cell, hrows, hcells, hfirst, hidle⟩ := feedRow_of_runTile h
  exact operable_of_feedRow hfirst hrows hgroups hidle fun k hk => hcells.slot_width k hk ▸ hwidth

/-- A tile is only computed where the first row of each group can be loaded. -/
theorem readable_of_runTile (h : engine.runTile job plane = .ok result) :
    ∀ group < b.groups, R.readable job.planes group 0 job.tile.col job.tile.inWidth = true := by
  obtain ⟨rows, started, engine₁, cell, hrows, hcells, hfirst, -⟩ := feedRow_of_runTile h
  rw [← hcells.register_width]
  exact readable_of_feedRow hfirst hrows

theorem suits_of_runTile (h : engine.runTile job plane = .ok result)
    (hwidth : b.filter.side ≤ job.planes.width) (hgroups : b.groups = R.groups job.planes.channels)
    (hpos : 0 < b.groups) : b.Suits job.planes := by
  obtain ⟨hheight_lt, hwidth_lt⟩ := extents_of_runTile h
  have hheight : 0 < job.planes.height + 1 - b.filter.side := (sizes_of_runTile h).1
  exact ⟨⟨by omega, hwidth, hheight_lt, hwidth_lt, hpos⟩, hgroups,
    fun group hgroup => (Regime.readable_iff.1 (readable_of_runTile h group hgroup)).1⟩

end Engine

end DirectConv
