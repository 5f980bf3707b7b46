import DirectConv.Proofs.Engine.Steps
import DirectConv.Proofs.Sound

/-!
# Finer cells

A regime can be run with cells that hold more than its own, as long as they can be read as its own
and every operation agrees with the reading. The finer run takes the same steps and stores the same
elements, and at every moment its accumulators, read as cells of the regime, are those of the run
itself. So whatever is shown of the finer cells is shown of the run.

## Main definitions

- `DirectConv.Regime.Refinement`: finer cells
- `DirectConv.Regime.Refinement.regime`: the regime with these cells
- `DirectConv.Register.relabel`, `DirectConv.Regime.Refinement.engine`: read a register and an
  engine

## Main statements

- `DirectConv.Regime.Refinement.perform_state`: a step of a tile
- `DirectConv.Regime.Refinement.runTile_engine`: a whole tile
-/

namespace DirectConv

namespace Register

variable {α β : Type} {n : Nat}

/-- Read every lane through `f`. -/
def relabel (f : α → β) (r : Register α n) : Register β n where
  stored := r.stored.map f
  rest := f r.rest
  width := r.width
  width_le := r.width_le

@[simp] theorem width_relabel (f : α → β) (r : Register α n) :
    (r.relabel f).width = r.width := rfl

@[simp] theorem lane_relabel (f : α → β) (r : Register α n) (i : Nat) :
    (r.relabel f).lane i = f (r.lane i) := by
  simp only [lane, relabel, Array.getD_eq_getD_getElem?, Array.getElem?_map]
  cases r.stored[i]? <;> rfl

theorem relabel_tabulate (f : α → β) (r : Register α n) (g : (i : Nat) → i < r.width → α) :
    (r.tabulate g).relabel f = (r.relabel f).tabulate fun i hi => f (g i hi) := by
  simp only [relabel, tabulate, Array.map_append, Array.map_ofFn, Array.map_extract,
    Array.size_map]
  rfl

end Register

/-- Cells that hold more than those of `R`, and how they are read as cells of `R`. -/
structure Regime.Refinement (R : Regime) where
  Cell : Type
  vacant : Cell
  first : R.Lane → R.Tap → Cell
  later : Cell → R.Lane → R.Tap → Cell
  endGroup : FilterSize → (group groups : Nat) → Cell → Cell
  read : Cell → R.Cell
  read_vacant : read vacant = R.vacantCell.get
  read_first : ∀ lane tap, read (first lane tap) = R.first lane tap
  read_later : ∀ cell lane tap, read (later cell lane tap) = R.later (read cell) lane tap
  read_endGroup : ∀ filter group groups cell,
    read (endGroup filter group groups cell) = R.endGroup filter group groups (read cell)

namespace Regime.Refinement

variable {R : Regime} (C : R.Refinement)

/-- The regime with finer cells. What it stores is read off them. -/
@[reducible] def regime : Regime where
  __ := R
  Cell := C.Cell
  vacantCell := .pure C.vacant
  first := C.first
  later := C.later
  endGroup := C.endGroup
  settled cell := R.settled (C.read cell)
  result cell := R.result (C.read cell)

/-- The finer regime is run for the same filters. -/
theorem sound {filter : FilterSize} (hR : R.Sound filter) : C.regime.Sound filter where
  totals := hR.totals
  operable := hR.operable
  groups_pos := hR.groups_pos
  groups_le := hR.groups_le
  lastChannel_le := hR.lastChannel_le
  covers := hR.covers
  settled h := by
    show R.settled (C.read (C.endGroup _ _ _ _)) = true
    rw [C.read_endGroup]
    exact hR.settled h
  lane_le := hR.lane_le
  slot_pos := hR.slot_pos
  output_pos := hR.output_pos

/-! ### Accumulators -/

section Accumulator

variable {n m : Nat}

/-- Read an accumulator. -/
def accumulator (acc : Accumulator C.regime n) : Accumulator R n := Register.relabel C.read acc

theorem contribute_accumulator (acc : Accumulator C.regime n) {f : C.Cell → R.Lane → C.Cell}
    {g : R.Cell → R.Lane → R.Cell}
    (hread : ∀ cell lane, C.read (f cell lane) = g (C.read cell) lane)
    (register : Register R.Lane m) :
    Accumulator.contribute (C.accumulator acc) g register =
      C.accumulator <$> Accumulator.contribute (R := C.regime) acc f register := by
  rw [Accumulator.contribute, Accumulator.contribute]
  by_cases hidle : R.idle = true
  · rw [if_pos hidle, if_pos (show C.regime.idle = true from hidle)]
    rfl
  · rw [if_neg hidle, if_neg (show ¬ C.regime.idle = true from hidle), map_bind]
    refine bind_congr fun _ => ?_
    rw [Register.combine, Register.combine]
    split
    · rename_i hwidth
      rw [if_pos (show acc.width ≤ register.width from hwidth)]
      refine congrArg Except.ok ?_
      simp only [accumulator, Register.relabel_tabulate, Register.lane_relabel, hread]
    · rename_i hwidth
      rw [if_neg (show ¬ acc.width ≤ register.width from hwidth)]
      rfl

theorem endGroup_accumulator (acc : Accumulator C.regime n) (filter : FilterSize)
    (group groups : Nat) :
    (C.accumulator acc).endGroup filter group groups =
      C.accumulator (Accumulator.endGroup acc filter group groups) := by
  rw [accumulator, accumulator, Accumulator.endGroup, Accumulator.endGroup, Register.map,
    Register.map, Register.relabel_tabulate]
  refine congrArg _ (funext fun i => funext fun hi => ?_)
  rw [Register.lane_relabel, C.read_endGroup]

theorem store_accumulator (acc : Accumulator C.regime n) (buffer : Array R.Output)
    (start count : Nat) :
    (C.accumulator acc).store buffer start count =
      Accumulator.store (R := C.regime) acc buffer start count := by
  have hactive : (C.accumulator acc).active = acc.active.map C.read := by
    simp only [Register.active, Array.map_ofFn]
    exact congrArg Array.ofFn (funext fun i => Register.lane_relabel _ _ _)
  rw [Accumulator.store, Accumulator.store, hactive]
  simp only [Array.toList_map, List.map_map, Array.all_map]
  rfl

end Accumulator

/-! ### Engines -/

variable {b : Blocking}

/-- Read an engine. -/
def engine (e : Engine C.regime b) : Engine R b where
  register := e.register
  slots := e.slots.map C.accumulator

/-- Read the state of a tile. -/
def state (s : Engine.TileState C.regime b) : Engine.TileState R b where
  base := s.base
  engine := C.engine s.engine
  plane := s.plane

/-- The same job for the finer regime. -/
def job (job : Job R) : Job C.regime := ⟨job.planes, job.taps, job.tile⟩

theorem updateRow_engine (e : Engine C.regime b) (base row : Nat)
    {f : Accumulator C.regime b.maxLanes → Except Fault (Accumulator C.regime b.maxLanes)}
    {g : Accumulator R b.maxLanes → Except Fault (Accumulator R b.maxLanes)}
    (hread : ∀ acc, g (C.accumulator acc) = C.accumulator <$> f acc) :
    (C.engine e).updateRow base row g = C.engine <$> e.updateRow base row f := by
  rw [Engine.updateRow, Engine.updateRow]
  split
  · rename_i hslot
    have hget : (C.engine e).slots.get ⟨row - base, hslot.2⟩ =
        C.accumulator (e.slots.get ⟨row - base, hslot.2⟩) :=
      Vector.getElem_map C.accumulator hslot.2
    rw [hget, hread, map_bind, bind_map_left]
    refine bind_congr fun acc => congrArg Except.ok ?_
    simp only [engine, Vector.map_set]
  · rfl

theorem contribute_engine (job : Job R) (base row group column kernelRow : Nat)
    (e : Engine C.regime b) :
    Engine.contribute job base row group column (C.engine e) kernelRow =
      C.engine <$> Engine.contribute (C.job job) base row group column e kernelRow := by
  have htaps (i : Nat) : (C.job job).taps[i]? = job.taps[i]? := rfl
  rw [Engine.contribute, Engine.contribute, htaps]
  cases job.taps[(group * b.filter.side + kernelRow) * b.filter.side + column]? with
  | none => rfl
  | some tap =>
    refine C.updateRow_engine e base (row - kernelRow) fun acc => ?_
    split
    · exact C.contribute_accumulator acc (fun cell lane => C.read_first lane tap) e.register
    · exact C.contribute_accumulator acc (fun cell lane => C.read_later cell lane tap) e.register

theorem rotate_engine (e : Engine C.regime b) : (C.engine e).rotate = C.engine e.rotate := by
  simp only [engine, Engine.rotate, Engine.mk.injEq, true_and]
  apply Vector.ext
  intro i hi
  simp only [Vector.getElem_ofFn, Vector.getElem_map]
  exact Vector.getElem_map C.accumulator (Nat.mod_lt _ b.slots_pos)

theorem storeRow_engine (e : Engine C.regime b) (tile : Tile) (cols base : Nat)
    (plane : Array R.Output) (slot : Nat) :
    (C.engine e).storeRow tile cols base plane slot =
      Engine.storeRow (R := C.regime) e tile cols base plane slot := by
  rw [Engine.storeRow, Engine.storeRow]
  split
  · rename_i hslot
    have hget : (C.engine e).slots.get ⟨slot, hslot⟩ = C.accumulator (e.slots.get ⟨slot, hslot⟩) :=
      Vector.getElem_map C.accumulator hslot
    rw [hget, store_accumulator]
  · rfl

theorem setTile_engine (e : Engine C.regime b) (tile : Tile) :
    (C.engine e).setTile tile = C.engine <$> e.setTile tile := by
  rw [Engine.setTile, Engine.setTile, map_bind]
  refine bind_congr fun register => ?_
  split
  · refine congrArg Except.ok ?_
    simp only [engine, Vector.map_map]
    rfl
  · rfl

/-- A step of the finer run, read, is the step of the run itself. -/
theorem perform_state (job : Job R) (cols : Nat) (s : Engine.TileState C.regime b)
    (step : TileStep) :
    Engine.perform job cols (C.state s) step =
      C.state <$> Engine.perform (C.job job) cols s step := by
  cases step with
  | load row group =>
    rw [Engine.perform, Engine.perform, map_bind]
    rfl
  | contribute row kernelRow group column =>
    rw [Engine.perform, Engine.perform, map_bind]
    refine Eq.trans (congrArg (· >>= _) (C.contribute_engine job s.base (row + kernelRow) group
      column kernelRow s.engine)) ?_
    rw [bind_map_left]
    rfl
  | slide => rfl
  | endGroup row kernelRow group =>
    rw [Engine.perform, Engine.perform, map_bind]
    refine Eq.trans (congrArg (· >>= _) (C.updateRow_engine s.engine s.base row
      (f := fun acc => return acc.endGroup b.filter group b.groups) fun acc =>
        congrArg Except.ok (C.endGroup_accumulator acc b.filter group b.groups))) ?_
    rw [bind_map_left]
    rfl
  | store row =>
    rw [Engine.perform, Engine.perform, map_bind]
    refine bind_congr fun _ => ?_
    rw [map_bind]
    exact congrArg (· >>= _)
      (C.storeRow_engine s.engine job.tile cols s.base s.plane (row - s.base))
  | rotate =>
    refine congrArg Except.ok ?_
    simp only [state, C.rotate_engine]

theorem foldlM_perform_state (job : Job R) (cols : Nat) (steps : List TileStep)
    (s : Engine.TileState C.regime b) :
    steps.foldlM (Engine.perform job cols) (C.state s) =
      C.state <$> steps.foldlM (Engine.perform (C.job job) cols) s :=
  foldlM_hom C.state (C.perform_state job cols) steps s

/-- A tile of the finer run, read, is the tile of the run itself, and stores the same elements. -/
theorem runTile_engine (e : Engine C.regime b) (job : Job R) (plane : Array R.Output) :
    (C.engine e).runTile job plane =
      (fun result => (C.engine result.1, result.2)) <$>
        Engine.runTile (R := C.regime) e (C.job job) plane := by
  rw [Engine.runTile_eq_runSteps, Engine.runTile_eq_runSteps, Engine.runSteps, Engine.runSteps,
    map_bind]
  refine bind_congr fun rows => ?_
  rw [map_bind]
  refine bind_congr fun cols => ?_
  rw [map_bind]
  refine bind_congr fun _ => ?_
  rw [map_bind, C.setTile_engine, bind_map_left]
  refine bind_congr fun started => ?_
  rw [map_bind]
  refine Eq.trans (congrArg (· >>= _) (C.foldlM_perform_state job cols _ ⟨0, started, plane⟩)) ?_
  rw [bind_map_left]
  rfl

theorem fresh_engine : C.engine (Engine.fresh C.regime b) = Engine.fresh R b := by
  simp only [engine, Engine.fresh, Engine.mk.injEq, Vector.map_replicate, true_and]
  refine congrArg _ ?_
  simp only [accumulator, Accumulator.fresh, Register.relabel, Register.replicate, Array.map_empty,
    ← C.read_vacant]
  rfl

end Regime.Refinement

end DirectConv
