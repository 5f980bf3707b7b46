import DirectConv.Proofs.Engine.Pace
import DirectConv.Proofs.Engine.Refinement
import DirectConv.Proofs.Sharing

/-!
# The moments of a run

A run takes the filters of a plan one after the other, computes their tiles one after the other, and
each tile step by step. So a moment of a run is given by a filter, a tile and a number of steps. If
several engines share the filters, what an engine holds depends on the turns that were taken before.

## Main definitions

- `DirectConv.Plan.Moment`, `DirectConv.Plan.stateAt`: a moment of a run, and the engine at work
- `DirectConv.Plan.Lasting`: properties of engines that tiles preserve

## Main statements

- `DirectConv.Plan.stateAt_alone_eq`: the moments of a run that is completed
- `DirectConv.Plan.stateAt_store`: what is held when a row is about to be stored
- `DirectConv.Plan.Lasting.stateAt`: what tiles preserve holds at every moment
- `DirectConv.Regime.Refinement.stateAt_eq`: the moments of a run with finer cells
-/

namespace DirectConv

open Engine (TileState perform)

namespace Plan

variable {R : Regime} {b : Blocking}

/-- The steps of every tile of a plan whose input is `planes`. -/
def tileSteps (planes : Planes R.Input) (b : Blocking) : List TileStep :=
  let rows := planes.height + 1 - b.filter.side
  b.scheduleSteps rows (Schedule.ofRows b.block rows b.block_pos)

/-- An engine that takes filter `index` while it computes tile number `i`, after `count` steps. -/
def during (plan : Plan) (planes : Planes R.Input) (tiles : List Tile) (output : Array R.Output)
    (weights : Array R.Weight) (progress : Progress R b) (index i count : Nat) :
    Except Fault (TileState R b) := do
  let shape := plan.shape
  let bankSize := shape.channels * plan.filter.taps
  let bank ← Buffer.slice weights (index * bankSize) bankSize
  let taps ← R.prepare bank shape.channels plan.filter
  let plane ← Buffer.slice output (index * shape.planeSize) shape.planeSize
  let done ← (tiles.take i).foldlM (runTile planes taps) { progress with buffer := plane }
  match tiles[i]? with
  | none => throw .outOfRange
  | some tile =>
    let started ← done.engine.setTile tile
    ((tileSteps planes b).take count).foldlM
      (perform { planes, taps, tile } (planes.width + 1 - b.filter.side)) ⟨0, started, done.buffer⟩

/-- What a run starts from: the tiles, the input and an engine that has not computed anything. -/
def opening (R : Regime) (plan : Plan) (b : Blocking) (input : Array R.Input) :
    Except Fault (TileCursor × Planes R.Input × Engine R b) := do
  let shape := plan.shape
  let tiles ← plan.tiles
  let planes ← Planes.ofArray input shape.channels shape.height shape.width
  require (0 < shape.planeSize) .brokenPrecondition
  let engine ← Engine.make R b
  return (tiles, planes, engine)

/-- A moment of a run. -/
inductive Moment where
  /-- A single engine takes filter `index` and has performed `count` steps of tile number `i`. -/
  | alone (index i count : Nat)
  /-- One of several engines takes a turn, after the turns in `turns`, and has performed `count`
  steps of tile number `i`. -/
  | shared (turns : List Turn) (turn : Turn) (i count : Nat)

/-- The engine that is at work at a moment, and the output plane it works on. -/
def stateAt (R : Regime) (plan : Plan) (b : Blocking) (output : Array R.Output)
    (input : Array R.Input) (weights : Array R.Weight) : Moment → Except Fault (TileState R b)
  | .alone index i count => do
    let (tiles, planes, engine) ← plan.opening R b input
    let opening := LogEntry.convolution R.name plan.shape plan.filter plan.maxLanes plan.block
      tiles.remaining
    let progress ← (List.range index).foldlM (runFilter plan planes tiles.toList output weights)
      { engine, buffer := #[], log := #[opening] }
    plan.during planes tiles.toList output weights progress index i count
  | .shared turns turn i count => do
    let (tiles, planes, engine) ← plan.opening R b input
    let shared ← turns.foldlM (takeTurn plan planes tiles.toList weights)
      { engines := fun _ => engine, output }
    let progress := ⟨shared.engines turn.engine, #[], #[]⟩
    plan.during planes tiles.toList shared.output weights progress turn.filter i count

/-! ### Runs that are completed -/

section Completed

variable {plan : Plan} {planes : Planes R.Input} {tiles : List Tile} {output : Array R.Output}
  {weights : Array R.Weight} {index i : Nat} {tile : Tile}

theorem runSteps_of_runTile {taps : Array R.Tap} {progress progress' : Progress R b}
    (hok : Plan.runTile planes taps progress tile = .ok progress') :
    progress.buffer.size =
        (planes.height + 1 - b.filter.side) * (planes.width + 1 - b.filter.side) ∧
      ∃ started state, progress.engine.setTile tile = .ok started ∧
        (tileSteps planes b).foldlM (perform { planes, taps, tile }
          (planes.width + 1 - b.filter.side)) ⟨0, started, progress.buffer⟩ = .ok state ∧
        progress'.engine = state.engine := by
  obtain ⟨⟨engine, plane, stats⟩, htile, hresult⟩ := bind_eq_ok_iff.1 hok
  rw [Engine.runTile_eq_runSteps] at htile
  simp only [Engine.runSteps, bind_eq_ok_iff] at htile
  obtain ⟨rows, hrows, cols, hcols, _, hrequire, started, hstarted, state, hsteps, hstate⟩ := htile
  obtain ⟨-, -, rfl⟩ := Size.windowStarts_eq_ok_iff.1 hrows
  obtain ⟨-, -, rfl⟩ := Size.windowStarts_eq_ok_iff.1 hcols
  have hsize := require_eq_ok_iff.1 hrequire
  simp only [Bool.and_eq_true, beq_iff_eq] at hsize
  refine ⟨hsize.1.2, started, state, hstarted, hsteps, ?_⟩
  rw [← Except.ok.inj hresult]
  exact (congrArg Prod.fst (Except.ok.inj hstate)).symm

/-- How an engine computes tile number `i` of a filter. -/
structure Stage (plan : Plan) (planes : Planes R.Input) (weights : Array R.Weight) (index : Nat)
    (tile : Tile) (taps : Array R.Tap) (started : Engine R b) (plane : Array R.Output) : Prop where
  taps_eq : Buffer.slice weights (index * (plan.shape.channels * plan.filter.taps))
    (plan.shape.channels * plan.filter.taps) >>= (R.prepare · plan.shape.channels plan.filter) =
      .ok taps
  started_eq : ∃ engine : Engine R b, engine.setTile tile = .ok started
  plane_size : plane.size =
    (planes.height + 1 - b.filter.side) * (planes.width + 1 - b.filter.side)
  steps_ok : ∃ state, (tileSteps planes b).foldlM
    (perform { planes, taps, tile } (planes.width + 1 - b.filter.side)) ⟨0, started, plane⟩ =
      .ok state

/-- If a filter is completed, the moments of its tiles are what the steps of the tiles lead to. -/
theorem during_eq {progress progress' : Progress R b}
    (hok : plan.runFilter planes tiles output weights progress index = .ok progress')
    (htile : tiles[i]? = some tile) :
    ∃ taps started plane, plan.Stage (b := b) planes weights index tile taps started plane ∧
      ∀ count, plan.during planes tiles output weights progress index i count =
        ((tileSteps planes b).take count).foldlM
          (perform { planes, taps, tile } (planes.width + 1 - b.filter.side))
            ⟨0, started, plane⟩ := by
  simp only [Plan.runFilter, bind_eq_ok_iff] at hok
  obtain ⟨bank, hbank, taps, htaps, plane, hplane, done, hdone, -⟩ := hok
  obtain ⟨hi, rfl⟩ := List.getElem?_eq_some_iff.1 htile
  rw [← List.take_append_drop i tiles, List.drop_eq_getElem_cons hi] at hdone
  obtain ⟨reached, hreached, hrest⟩ := foldlM_append_eq_ok hdone
  obtain ⟨next, hnext, -⟩ := foldlM_cons_eq_ok hrest
  obtain ⟨hsize, started, state, hstarted, hsteps, -⟩ := runSteps_of_runTile hnext
  refine ⟨taps, started, reached.buffer, ⟨?_, ⟨reached.engine, hstarted⟩, hsize, state, hsteps⟩, ?_⟩
  · rw [bind_of_eq_ok hbank, htaps]
  · intro count
    rw [during, bind_of_eq_ok hbank, bind_of_eq_ok htaps, bind_of_eq_ok hplane,
      bind_of_eq_ok hreached, htile]
    exact bind_of_eq_ok hstarted _

variable {input : Array R.Input} {cursor : TileCursor}

/-- The moments of a run that is completed. -/
theorem stateAt_alone_eq {result : Array R.Output × Array LogEntry}
    (hb : Blocking.of plan.filter plan.block plan.groups plan.maxLanes = .ok b)
    (hrun : plan.run R output input weights = .ok result) (hindex : index < plan.shape.outputs)
    (hcursor : plan.tiles = .ok cursor) (htile : cursor.toList[i]? = some tile) :
    ∃ planes taps started plane, Planes.ofArray input plan.shape.channels plan.shape.height
        plan.shape.width = .ok planes ∧
      plan.Stage (b := b) planes weights index tile taps started plane ∧
      ∀ count, plan.stateAt R b output input weights (.alone index i count) =
        ((tileSteps planes b).take count).foldlM
          (perform { planes, taps, tile } (planes.width + 1 - b.filter.side))
            ⟨0, started, plane⟩ := by
  simp only [Plan.run, bind_eq_ok_iff] at hrun
  obtain ⟨cursor', hcursor', planes, hplanes, _, hrequire, b', hb', engine, hengine, done, hdone,
    -⟩ := hrun
  obtain rfl : cursor = cursor' := Except.ok.inj (hcursor.symm.trans hcursor')
  obtain rfl : b = b' := Except.ok.inj (hb.symm.trans hb')
  have hopening : plan.opening R b input = .ok (cursor, planes, engine) := by
    rw [opening, bind_of_eq_ok hcursor, bind_of_eq_ok hplanes, bind_of_eq_ok hrequire,
      bind_of_eq_ok hengine]
    rfl
  obtain ⟨later, hlater⟩ := Nat.exists_eq_add_of_lt hindex
  rw [hlater, Nat.add_assoc, List.range_add, List.range_succ_eq_map] at hdone
  obtain ⟨progress, hbefore, hrest⟩ := foldlM_append_eq_ok hdone
  obtain ⟨next, hfilter, -⟩ := foldlM_cons_eq_ok hrest
  obtain ⟨taps, started, plane, hstage, hmoments⟩ := during_eq hfilter htile
  refine ⟨planes, taps, started, plane, hplanes, hstage, fun count => ?_⟩
  rw [stateAt, bind_of_eq_ok hopening, ← hmoments count]
  exact bind_of_eq_ok hbefore _

/-- Whenever an output row of a tile is about to be stored, its slot holds the cells of the row. -/
theorem stateAt_store (hR : R.Sound plan.filter) (hplan : plan.Valid R) (hroom : plan.HasRoom R)
    (hmatch : plan.Matches input weights output) (hindex : index < plan.shape.outputs)
    (hcursor : plan.tiles = .ok cursor) (htile : cursor.toList[i]? = some tile) {row : Nat}
    (hrow : row < plan.shape.outHeight) :
    ∃ count state,
      ((plan.blocking hplan).scheduleSteps plan.shape.outHeight
        (Schedule.ofRows plan.block plan.shape.outHeight hplan.block_pos))[count]? =
          some (.store row) ∧
      plan.stateAt R (plan.blocking hplan) output input weights (.alone index i count) =
        .ok state ∧
      state.base ≤ row ∧ ∃ hslot : row - state.base < (plan.blocking hplan).slots,
        ∀ x < tile.outWidth, tile.col + x < plan.shape.outWidth ∧
          state.engine.slots[row - state.base].lane x =
            (R.windowTerms (plan.planes input hmatch.input_eq)
              (R.bankTap plan.filter plan.shape.channels weights index) row (tile.col + x)).cell
                plan.filter plan.groups := by
  obtain ⟨log, hrun⟩ := run_ok hR hplan hroom hmatch
  obtain ⟨planes, taps, started, plane, hplanes, hstage, hmoments⟩ :=
    stateAt_alone_eq (blocking_ok hR hplan hroom.slots) hrun hindex hcursor htile
  obtain ⟨-, -, hplanes', -⟩ := preparations_ok hR hplan hmatch
  obtain rfl : plan.planes input hmatch.input_eq = planes :=
    Except.ok.inj (hplanes'.symm.trans hplanes)
  -- the job fits the engine
  have hsuits := suits hR hplan hmatch.input_eq hmatch.input_le
  obtain ⟨hbank, hbank_size⟩ := bank_ok (R := R) hmatch hplan hindex
  obtain ⟨taps', hprepare, htaps⟩ := prepare_ok (b := plan.blocking hplan) hplan.groups_eq
    hbank_size (hmatch.countable hR hplan hindex)
    fun hprepared => hroom.taps hprepared (Nat.zero_lt_of_lt hindex)
  have hprepared := hstage.taps_eq
  rw [bind_of_eq_ok hbank] at hprepared
  obtain rfl : taps' = taps := Except.ok.inj (hprepare.symm.trans hprepared)
  obtain ⟨cursor', hcursor', hinside, -⟩ := tiles_ok hplan hsuits.width_lt
  obtain rfl : cursor = cursor' := Except.ok.inj (hcursor.symm.trans hcursor')
  obtain ⟨hinside, hwide⟩ := hinside tile (List.mem_of_getElem? htile)
  obtain ⟨engine, hstarted⟩ := hstage.started_eq
  obtain ⟨cell, hcells⟩ := Engine.hasCells_of_setTile hstarted
  have hfits : Job.Fits ⟨plan.planes input hmatch.input_eq, taps', tile⟩ (plan.blocking hplan) _ :=
    hsuits.fits hR htaps hinside
  obtain ⟨before, after, state, hsteps, hbefore, hbase, hslot, hlane⟩ :=
    Engine.reaches_store hR hfits hcells hstage.plane_size (hplan.outHeight_eq ▸ hrow)
  have htileSteps : tileSteps (plan.planes input hmatch.input_eq) (plan.blocking hplan) =
    before ++ .store row :: after := hsteps
  have hrows : (plan.planes input hmatch.input_eq).height + 1 - (plan.blocking hplan).filter.side =
    plan.shape.outHeight := hplan.outHeight_eq
  refine ⟨before.length, state, ?_, ?_, hbase, hslot, ?_⟩
  · simp only [tileSteps, hrows] at htileSteps
    refine (congrArg (·[before.length]?) htileSteps).trans ?_
    rw [List.getElem?_append_right (Nat.le_refl _), Nat.sub_self]
    rfl
  · rw [hmoments, htileSteps, List.take_left]
    exact hbefore
  · intro x hx
    have hend : tile.col + tile.outWidth ≤ plan.shape.outWidth :=
      hinside.output_le.trans_eq hplan.outWidth_eq
    exact ⟨(Nat.add_lt_add_left hx _).trans_le hend,
      (hlane x hx).trans (Job.cell_eq_cell hwide hx)⟩

end Completed

/-! ### What tiles preserve -/

/-- `P` holds of an engine that has not computed anything, and the steps of a tile preserve it. -/
structure Lasting (plan : Plan) (b : Blocking) (planes : Planes R.Input)
    (P : Engine R b → Prop) : Prop where
  fresh : P (Engine.fresh R b)
  setTile : ∀ {engine started : Engine R b} {tile}, P engine → engine.setTile tile = .ok started →
    P started
  steps : ∀ {bank taps tile plane} {started : Engine R b} {count} {state : TileState R b},
    R.prepare bank plan.shape.channels plan.filter = .ok taps → P started →
    ((tileSteps planes b).take count).foldlM
      (perform { planes, taps, tile } (planes.width + 1 - b.filter.side)) ⟨0, started, plane⟩ =
        .ok state → P state.engine

namespace Lasting

variable {plan : Plan} {planes : Planes R.Input} {P : Engine R b → Prop} {tiles : List Tile}
  {output : Array R.Output} {weights : Array R.Weight}

theorem runTile (h : plan.Lasting b planes P) {bank : Array R.Weight} {taps : Array R.Tap}
    (hprepare : R.prepare bank plan.shape.channels plan.filter = .ok taps)
    {progress progress' : Progress R b} (hP : P progress.engine) {tile : Tile}
    (hok : Plan.runTile planes taps progress tile = .ok progress') : P progress'.engine := by
  obtain ⟨-, started, state, hstarted, hsteps, hengine⟩ := runSteps_of_runTile hok
  rw [← List.take_length (l := tileSteps planes b)] at hsteps
  rw [hengine]
  exact h.steps hprepare (h.setTile hP hstarted) hsteps

theorem runTiles (h : plan.Lasting b planes P) {bank : Array R.Weight} {taps : Array R.Tap}
    (hprepare : R.prepare bank plan.shape.channels plan.filter = .ok taps)
    {engine : Engine R b} {buffer : Array R.Output} {log : Array LogEntry}
    {progress : Progress R b} (hP : P engine)
    (hok : tiles.foldlM (Plan.runTile planes taps) ⟨engine, buffer, log⟩ = .ok progress) :
    P progress.engine :=
  (rounds_of_foldlM (fun progress : Progress R b => P progress.engine)
    (fun _ _ _ hP hok => h.runTile hprepare hP hok) hP hok).1

theorem runFilter (h : plan.Lasting b planes P) {progress progress' : Progress R b}
    (hP : P progress.engine) {index : Nat}
    (hok : plan.runFilter planes tiles output weights progress index = .ok progress') :
    P progress'.engine := by
  simp only [Plan.runFilter, bind_eq_ok_iff] at hok
  obtain ⟨bank, -, taps, hprepare, plane, -, done, hdone, hresult⟩ := hok
  rw [← Except.ok.inj hresult]
  exact (h.runTiles hprepare hP hdone : P done.engine)

theorem takeTurn (h : plan.Lasting b planes P) {shared shared' : Shared R b}
    (hP : ∀ i, P (shared.engines i)) {turn : Turn}
    (hok : plan.takeTurn planes tiles weights shared turn = .ok shared') :
    ∀ i, P (shared'.engines i) := by
  obtain ⟨done, hdone, hresult⟩ := bind_eq_ok_iff.1 hok
  have hturn : P done.engine := h.runFilter (hP turn.engine) hdone
  intro i
  rw [← Except.ok.inj hresult]
  show P (if i = turn.engine then done.engine else shared.engines i)
  split
  · exact hturn
  · exact hP i

theorem during (h : plan.Lasting b planes P) {progress : Progress R b} (hP : P progress.engine)
    {index i count : Nat} {state : TileState R b}
    (hok : plan.during planes tiles output weights progress index i count = .ok state) :
    P state.engine := by
  simp only [Plan.during, bind_eq_ok_iff] at hok
  obtain ⟨bank, -, taps, hprepare, plane, -, done, hdone, hok⟩ := hok
  have hdone : P done.engine := h.runTiles hprepare hP hdone
  split at hok
  · cases hok
  · obtain ⟨started, hstarted, hsteps⟩ := bind_eq_ok_iff.1 hok
    exact h.steps hprepare (h.setTile hdone hstarted) hsteps

theorem engine_of_opening {input : Array R.Input} {tiles : TileCursor} {planes : Planes R.Input}
    {engine : Engine R b} (h : plan.opening R b input = .ok (tiles, planes, engine)) :
    engine = Engine.fresh R b ∧
      Planes.ofArray input plan.shape.channels plan.shape.height plan.shape.width = .ok planes := by
  simp only [opening, bind_eq_ok_iff] at h
  obtain ⟨_, -, _, hplanes, -, -, _, hmake, hresult⟩ := h
  simp only [Engine.make, bind_eq_ok_iff] at hmake
  obtain ⟨_, -, _, -, hfresh⟩ := hmake
  cases hresult
  exact ⟨(Except.ok.inj hfresh).symm, hplanes⟩

/-- The measure of a cell stays below what an output row receives, if the taps of every filter add
no more than that. -/
theorem below {measure : R.Cell → Nat} {w : Nat → Nat} (hidle : R.idle = false)
    (hgroups : 0 < b.groups) (hvacant : measure R.vacantCell.get ≤ b.rowWeight w)
    (hadds : ∀ bank taps, R.prepare bank plan.shape.channels plan.filter = .ok taps →
      ∀ tile, Job.Adds ⟨planes, taps, tile⟩ b measure w) :
    plan.Lasting b planes (Engine.Below · measure w) where
  fresh := .fresh hvacant
  setTile h hok := h.setTile hok
  steps hprepare h hok := Engine.below_of_steps hidle hgroups (hadds _ _ hprepare _) h hok

/-- What tiles preserve holds at every moment. -/
theorem stateAt {input : Array R.Input}
    (h : ∀ planes, Planes.ofArray input plan.shape.channels plan.shape.height plan.shape.width =
      .ok planes → plan.Lasting b planes P) {moment : Moment} {state : TileState R b}
    (hok : plan.stateAt R b output input weights moment = .ok state) : P state.engine := by
  cases moment with
  | alone index i count =>
    obtain ⟨⟨tiles, planes, engine⟩, hopening, hok⟩ := bind_eq_ok_iff.1 hok
    obtain ⟨progress, hprogress, hduring⟩ := bind_eq_ok_iff.1 hok
    obtain ⟨rfl, hplanes⟩ := engine_of_opening hopening
    have hlasting := h planes hplanes
    have hP : P progress.engine :=
      (rounds_of_foldlM (fun progress : Progress R b => P progress.engine)
        (fun _ _ _ hP hok => hlasting.runFilter hP hok) hlasting.fresh hprogress).1
    exact hlasting.during hP hduring
  | shared turns turn i count =>
    obtain ⟨⟨tiles, planes, engine⟩, hopening, hok⟩ := bind_eq_ok_iff.1 hok
    obtain ⟨shared, hshared, hduring⟩ := bind_eq_ok_iff.1 hok
    obtain ⟨rfl, hplanes⟩ := engine_of_opening hopening
    have hlasting := h planes hplanes
    have hP : ∀ i, P (shared.engines i) :=
      (rounds_of_foldlM (fun shared : Shared R b => ∀ i, P (shared.engines i))
        (fun _ _ _ hP hok => hlasting.takeTurn hP hok) (fun _ => hlasting.fresh) hshared).1
    exact hlasting.during (hP turn.engine) hduring

end Lasting

end Plan

/-! ### Moments of the finer run -/

namespace Regime.Refinement

variable {R : Regime} (C : R.Refinement) {b : Blocking} {plan : Plan} {planes : Planes R.Input}
  {tiles : List Tile} {output : Array R.Output} {weights : Array R.Weight}

/-- Read the progress of a run by one engine. -/
def progress (p : Plan.Progress C.regime b) : Plan.Progress R b :=
  ⟨C.engine p.engine, p.buffer, p.log⟩

/-- Read the engines that share an output. -/
def shared (s : Plan.Shared C.regime b) : Plan.Shared R b :=
  ⟨fun i => C.engine (s.engines i), s.output⟩

theorem runTile_progress (taps : Array R.Tap) (p : Plan.Progress C.regime b) (tile : Tile) :
    Plan.runTile planes taps (C.progress p) tile =
      C.progress <$> Plan.runTile (R := C.regime) planes taps p tile := by
  rw [Plan.runTile, Plan.runTile, map_bind]
  refine Eq.trans (congrArg (· >>= _) (C.runTile_engine p.engine ⟨planes, taps, tile⟩ p.buffer)) ?_
  rw [bind_map_left]
  rfl

theorem foldlM_runTile_progress (taps : Array R.Tap) (tiles : List Tile)
    (p : Plan.Progress C.regime b) :
    tiles.foldlM (Plan.runTile planes taps) (C.progress p) =
      C.progress <$> tiles.foldlM (Plan.runTile (R := C.regime) planes taps) p :=
  foldlM_hom C.progress (C.runTile_progress taps) tiles p

theorem runFilter_progress (p : Plan.Progress C.regime b) (index : Nat) :
    plan.runFilter planes tiles output weights (C.progress p) index =
      C.progress <$> plan.runFilter (R := C.regime) planes tiles output weights p index := by
  rw [Plan.runFilter, Plan.runFilter, map_bind]
  refine bind_congr fun bank => ?_
  rw [map_bind]
  refine bind_congr fun taps => ?_
  rw [map_bind]
  refine bind_congr fun plane => ?_
  rw [map_bind]
  refine Eq.trans (congrArg (· >>= _)
    (C.foldlM_runTile_progress taps tiles { p with buffer := plane })) ?_
  rw [bind_map_left]
  rfl

theorem takeTurn_shared (s : Plan.Shared C.regime b) (turn : Turn) :
    plan.takeTurn planes tiles weights (C.shared s) turn =
      C.shared <$> plan.takeTurn (R := C.regime) planes tiles weights s turn := by
  rw [Plan.takeTurn, Plan.takeTurn, map_bind]
  refine Eq.trans (congrArg (· >>= _)
    (C.runFilter_progress ⟨s.engines turn.engine, #[], #[]⟩ turn.filter)) ?_
  rw [bind_map_left]
  refine bind_congr fun done => congrArg Except.ok ?_
  simp only [shared, progress, Plan.Shared.mk.injEq, and_true]
  funext i
  split
  · rfl
  · rfl

theorem during_state (p : Plan.Progress C.regime b) (index i count : Nat) :
    plan.during planes tiles output weights (C.progress p) index i count =
      C.state <$> plan.during (R := C.regime) planes tiles output weights p index i count := by
  rw [Plan.during, Plan.during, map_bind]
  refine bind_congr fun bank => ?_
  rw [map_bind]
  refine bind_congr fun taps => ?_
  rw [map_bind]
  refine bind_congr fun plane => ?_
  rw [map_bind]
  refine Eq.trans (congrArg (· >>= _)
    (C.foldlM_runTile_progress taps (tiles.take i) { p with buffer := plane })) ?_
  rw [bind_map_left]
  refine bind_congr fun done => ?_
  cases tiles[i]? with
  | none => rfl
  | some tile =>
    refine Eq.trans (congrArg (· >>= _) (C.setTile_engine done.engine tile)) ?_
    rw [bind_map_left, map_bind]
    exact bind_congr fun started =>
      C.foldlM_perform_state ⟨planes, taps, tile⟩ _ _ ⟨0, started, done.buffer⟩

theorem opening_engine (input : Array R.Input) :
    plan.opening R b input = (fun start => (start.1, start.2.1, C.engine start.2.2)) <$>
      plan.opening C.regime b input := by
  rw [Plan.opening, Plan.opening, map_bind]
  refine bind_congr fun tiles => ?_
  rw [map_bind]
  refine bind_congr fun planes => ?_
  rw [map_bind]
  refine bind_congr fun _ => ?_
  have hmake : Engine.make R b = C.engine <$> Engine.make C.regime b := by
    rw [Engine.make, Engine.make, map_bind]
    refine bind_congr fun _ => ?_
    rw [map_bind]
    exact bind_congr fun _ => congrArg Except.ok C.fresh_engine.symm
  rw [map_bind, hmake, bind_map_left]
  rfl

/-- A plan for the regime is one for the finer regime. -/
theorem valid (hplan : plan.Valid R) : plan.Valid C.regime where
  toValid := hplan.toValid
  accepted := hplan.accepted
  side_le_maxLanes := hplan.side_le_maxLanes
  maxLanes_le_width := hplan.maxLanes_le_width
  lanes_le := hplan.lanes_le
  elementBits_pos := hplan.elementBits_pos
  block_pos := hplan.block_pos
  groups_eq := hplan.groups_eq

theorem hasRoom (hroom : plan.HasRoom R) : plan.HasRoom C.regime := ⟨hroom.slots, hroom.taps⟩

/-- At every moment the finer run, read, is the run itself. -/
theorem stateAt_eq (input : Array R.Input) (moment : Plan.Moment) :
    plan.stateAt R b output input weights moment =
      C.state <$> plan.stateAt C.regime b output input weights moment := by
  cases moment with
  | alone index i count =>
    rw [Plan.stateAt, Plan.stateAt, C.opening_engine, bind_map_left, map_bind]
    refine bind_congr fun start => ?_
    rw [map_bind]
    refine Eq.trans (congrArg (· >>= _) (foldlM_hom C.progress C.runFilter_progress
      (List.range index) (⟨start.2.2, #[], #[.convolution R.name plan.shape plan.filter
        plan.maxLanes plan.block start.1.remaining]⟩ : Plan.Progress C.regime b))) ?_
    rw [bind_map_left]
    exact bind_congr fun p => C.during_state p index i count
  | shared turns turn i count =>
    rw [Plan.stateAt, Plan.stateAt, C.opening_engine, bind_map_left, map_bind]
    refine bind_congr fun start => ?_
    rw [map_bind]
    refine Eq.trans (congrArg (· >>= _) (foldlM_hom C.shared C.takeTurn_shared turns
      (⟨fun _ => start.2.2, output⟩ : Plan.Shared C.regime b))) ?_
    rw [bind_map_left]
    exact bind_congr fun s => C.during_state ⟨s.engines turn.engine, #[], #[]⟩ turn.filter i count

end Regime.Refinement

end DirectConv
