import DirectConv.Proofs.Engine.Demands
import DirectConv.Proofs.Precision
import DirectConv.Proofs.Sharing

/-!
# Engines that are used again

An engine keeps its register and its accumulators from one tile to the next, also the lanes that a
narrow tile does not use. Nothing of this can be seen: whatever tiles of whatever banks engines have
computed before, and in whatever order, a tile leaves in its columns what an engine leaves there
that has not computed anything.

Steps are told one after the other. The steps of a bank are those of the interleaving that carry its
number, and the plane of the bank depends on no others.

## Main definitions

- `DirectConv.Tile.Admissible`: a tile that an engine can be given
- `DirectConv.Bench`, `DirectConv.Bench.step`, `DirectConv.Bench.run`: engines, the output planes
  of several banks, and steps that compute one tile each
- `DirectConv.Engine.FreshElement`: what an engine computes that has not computed anything
- `DirectConv.Bench.LikeFresh`: an output plane that does not show who computed it
- `DirectConv.Bench.Ready`, `DirectConv.Bench.Alike`: what steps are carried out for, and what two
  runs have in common

## Main statements

- `DirectConv.Bench.tiled_of_run`: the output plane of a bank after any steps
- `DirectConv.Bench.reuse_invisible`: used engines compute what fresh ones do
-/

namespace DirectConv

variable {R : Regime} {b : Blocking}

/-- The tile has at least one column, reads all the columns it needs, fits a register and ends
inside a row of the input. -/
structure Tile.Admissible (tile : Tile) (b : Blocking) (width : Nat) : Prop where
  outWidth_pos : 0 < tile.outWidth
  inWidth_eq : tile.inWidth = tile.outWidth + b.filter.carry
  inWidth_le : tile.inWidth ≤ b.maxLanes
  input_le : tile.col + tile.inWidth ≤ width

namespace Tile.Admissible

variable {tile : Tile} {width : Nat}

theorem side_le_width (h : tile.Admissible b width) : b.filter.side ≤ width := by
  have hside := b.filter.carry_add_one
  have hpos := h.outWidth_pos
  have hin := h.inWidth_eq
  have hinput := h.input_le
  omega

theorem inside (h : tile.Admissible b width) : tile.Inside b width := by
  have hside := b.filter.carry_add_one
  have hin := h.inWidth_eq
  have hinput := h.input_le
  exact ⟨by omega, h.inWidth_le, h.input_le, by omega⟩

end Tile.Admissible

/-- An array of the right size holds a tap for each position of each group. -/
theorem Blocking.exists_hasTaps {taps : Array R.Tap} (hgroups : 0 < b.groups)
    (hsize : taps.size = b.groups * b.filter.taps) : ∃ tap, b.HasTaps taps tap := by
  have hpos : 0 < taps.size := by
    rw [hsize]
    exact Nat.mul_pos hgroups (Nat.mul_pos b.filter.side_pos b.filter.side_pos)
  refine ⟨fun kernelRow group column =>
    taps.getD ((group * b.filter.side + kernelRow) * b.filter.side + column) taps[0], hsize, ?_⟩
  intro kernelRow hrow group hgroup column hcolumn
  have hindex : (group * b.filter.side + kernelRow) * b.filter.side + column < taps.size := by
    rw [hsize, FilterSize.taps, ← Nat.mul_assoc]
    exact mul_add_lt_mul (mul_add_lt_mul hgroup hrow) hcolumn
  rw [Array.getElem?_eq_getElem hindex, Array.getD, dif_pos hindex]
  rfl

namespace Engine

variable {input : Planes R.Input} {taps : Array R.Tap} {tap : Nat → Nat → Nat → R.Tap}

/-- An engine in any state computes an admissible tile. -/
theorem runTile_admissible (hR : R.Sound b.filter) (hinput : b.Suits input)
    (htaps : b.HasTaps taps tap) {tile : Tile} (htile : tile.Admissible b input.width)
    (engine : Engine R b) {plane : Array R.Output}
    (hsize : plane.size = (input.height + 1 - b.filter.side) * (input.width + 1 - b.filter.side)) :
    ∃ engine' plane' stats,
      engine.runTile { planes := input, taps, tile } plane = .ok (engine', plane', stats) ∧
        Plan.Tiled b input tap [tile] plane plane' := by
  obtain ⟨engine', plane', hrun, htiled⟩ := runTile_tiled hR { planes := input, taps, tile } hinput
    htaps htile.inside htile.inWidth_eq engine hsize
  exact ⟨engine', plane', _, hrun, htiled⟩

/-- An engine that has not computed anything computes `x` in row `row` and column `col`, with any
tile that covers the column and over any plane. -/
def FreshElement (b : Blocking) (input : Planes R.Input) (taps : Array R.Tap) (row col : Nat)
    (x : R.Output) : Prop :=
  ∀ (tile : Tile) (plane : Array R.Output), tile.Admissible b input.width → tile.Covers col →
    plane.size = (input.height + 1 - b.filter.side) * (input.width + 1 - b.filter.side) →
      ∃ engine plane' stats, (fresh R b).runTile { planes := input, taps, tile } plane =
          .ok (engine, plane', stats) ∧
        plane'[row * (input.width + 1 - b.filter.side) + col]? = some x

theorem freshElement_element (hR : R.Sound b.filter) (hinput : b.Suits input)
    (htaps : b.HasTaps taps tap) {row col : Nat} (hrow : row < input.height + 1 - b.filter.side)
    (hcol : col < input.width + 1 - b.filter.side) :
    FreshElement b input taps row col (R.element b.filter input tap row col) := by
  intro tile plane htile hcovers hsize
  obtain ⟨engine, plane', stats, hrun, htiled⟩ :=
    runTile_admissible hR hinput htaps htile (fresh R b) hsize
  refine ⟨engine, plane', stats, hrun, ?_⟩
  have hget := htiled.get row hrow col hcol
  rwa [if_pos ⟨tile, List.mem_singleton_self _, hcovers⟩] at hget

end Engine

/-- One tile of the output plane of a bank, computed by one of several engines. -/
structure Step where
  engine : Nat
  bank : Nat
  tile : Tile

/-- Several engines, and an output plane for each bank. -/
structure Bench (R : Regime) (b : Blocking) where
  engines : Nat → Engine R b
  outputs : Nat → Array R.Output

namespace Bench

/-- An engine computes a tile of a bank. -/
def step (input : Planes R.Input) (taps : Nat → Array R.Tap) (bench : Bench R b) (step : Step) :
    Except Fault (Bench R b) := do
  let (engine, plane, _) ← (bench.engines step.engine).runTile
    { planes := input, taps := taps step.bank, tile := step.tile } (bench.outputs step.bank)
  return {
    engines := fun i => if i = step.engine then engine else bench.engines i
    outputs := fun bank => if bank = step.bank then plane else bench.outputs bank }

/-- Take steps one after the other. -/
def run (input : Planes R.Input) (taps : Nat → Array R.Tap) (steps : List Step)
    (bench : Bench R b) : Except Fault (Bench R b) :=
  steps.foldlM (step input taps) bench

/-- The tiles of a bank. -/
def tilesOf (bank : Nat) (steps : List Step) : List Tile :=
  (steps.filter (·.bank = bank)).map (·.tile)

/-- Some step of the bank has a tile that covers the column. -/
def Covered (steps : List Step) (bank col : Nat) : Prop :=
  ∃ step ∈ steps, step.bank = bank ∧ step.tile.Covers col

theorem covered_iff {steps : List Step} {bank col : Nat} :
    Covered steps bank col ↔ ∃ tile ∈ tilesOf bank steps, tile.Covers col := by
  simp only [Covered, tilesOf, List.mem_map, List.mem_filter, decide_eq_true_eq]
  constructor
  · rintro ⟨step, hmem, hbank, hcovers⟩
    exact ⟨step.tile, ⟨step, ⟨hmem, hbank⟩, rfl⟩, hcovers⟩
  · rintro ⟨_, ⟨step, ⟨hmem, hbank⟩, rfl⟩, hcovers⟩
    exact ⟨step, hmem, hbank, hcovers⟩

theorem tilesOf_cons (bank : Nat) (step : Step) (rest : List Step) :
    tilesOf bank (step :: rest) = tilesOf bank [step] ++ tilesOf bank rest := by
  by_cases h : step.bank = bank <;> simp [tilesOf, h]

variable {input : Planes R.Input} {taps : Nat → Array R.Tap} {bench bench' final : Bench R b}
  {next : Step} {steps : List Step}

theorem eq_of_step {engine : Engine R b} {plane : Array R.Output} {stats : TileStats}
    (hrun : (bench.engines next.engine).runTile
      { planes := input, taps := taps next.bank, tile := next.tile } (bench.outputs next.bank) =
        .ok (engine, plane, stats)) (h : bench.step input taps next = .ok bench') (bank : Nat) :
    bench'.outputs bank = if bank = next.bank then plane else bench.outputs bank := by
  rw [step, bind_of_eq_ok hrun] at h
  rw [← Except.ok.inj h]

/-- A step changes the plane of its bank by its tile, and no other plane. -/
theorem tiled_of_step (hR : R.Sound b.filter) (hinput : b.Suits input) {bank : Nat}
    {tap : Nat → Nat → Nat → R.Tap} (htaps : b.HasTaps (taps bank) tap)
    (htile : next.tile.Admissible b input.width) (h : bench.step input taps next = .ok bench') :
    Plan.Tiled b input tap (tilesOf bank [next]) (bench.outputs bank) (bench'.outputs bank) := by
  obtain ⟨⟨engine, plane, stats⟩, hrun, -⟩ := bind_eq_ok_iff.1 h
  rw [eq_of_step hrun h]
  by_cases hbank : next.bank = bank
  · subst hbank
    obtain ⟨engine', plane', stats', hrun', htiled⟩ := Engine.runTile_admissible hR hinput htaps
      htile (bench.engines next.engine) (Engine.sizes_of_runTile hrun).2.1
    rw [hrun] at hrun'
    obtain ⟨-, rfl, -⟩ := Prod.mk.inj (Except.ok.inj hrun')
    rw [if_pos rfl]
    simpa [tilesOf] using htiled
  · rw [if_neg (Ne.symm hbank)]
    simpa [tilesOf, hbank] using Plan.Tiled.nil (bench.outputs bank)

/-- The plane of a bank after any steps: the tiles of the bank are computed, and nothing else of it
has changed. -/
theorem tiled_of_run (hR : R.Sound b.filter) (hinput : b.Suits input) {bank : Nat}
    {tap : Nat → Nat → Nat → R.Tap} (htaps : b.HasTaps (taps bank) tap)
    (hsteps : ∀ step ∈ steps, step.tile.Admissible b input.width)
    (h : bench.run input taps steps = .ok final) :
    Plan.Tiled b input tap (tilesOf bank steps) (bench.outputs bank) (final.outputs bank) := by
  induction steps generalizing bench with
  | nil =>
    obtain rfl := Except.ok.inj h
    exact .nil _
  | cons next rest ih =>
    obtain ⟨hnext, hrest⟩ := List.forall_mem_cons.1 hsteps
    obtain ⟨bench₁, hstep, hrun⟩ := foldlM_cons_eq_ok h
    rw [tilesOf_cons]
    exact (tiled_of_step hR hinput htaps hnext hstep).append (ih hrest hrun)

/-- A bank without steps keeps its plane, whatever its taps are. -/
theorem outputs_of_run {bank : Nat} (hbank : ∀ step ∈ steps, step.bank ≠ bank)
    (h : bench.run input taps steps = .ok final) : final.outputs bank = bench.outputs bank := by
  induction steps generalizing bench with
  | nil => rw [Except.ok.inj h]
  | cons next rest ih =>
    obtain ⟨hnext, hrest⟩ := List.forall_mem_cons.1 hbank
    obtain ⟨bench₁, hstep, hrun⟩ := foldlM_cons_eq_ok h
    obtain ⟨⟨engine, plane, stats⟩, htile, -⟩ := bind_eq_ok_iff.1 hstep
    rw [ih hrest hrun, eq_of_step htile hstep, if_neg (Ne.symm hnext)]

/-- Every step of a run has computed its tile. -/
theorem runTile_of_run (h : bench.run input taps steps = .ok final) (hnext : next ∈ steps) :
    ∃ (engine : Engine R b) (plane : Array R.Output) (result : _), engine.runTile
      { planes := input, taps := taps next.bank, tile := next.tile } plane = .ok result := by
  induction steps generalizing bench with
  | nil => cases hnext
  | cons first rest ih =>
    obtain ⟨bench₁, hstep, hrun⟩ := foldlM_cons_eq_ok h
    rcases List.mem_cons.1 hnext with rfl | hmem
    · obtain ⟨result, htile, -⟩ := bind_eq_ok_iff.1 hstep
      exact ⟨_, _, result, htile⟩
    · exact ih hrun hmem

/-- A step with the right sizes is taken, and sizes do not change. -/
theorem step_ok (hR : R.Sound b.filter) (hinput : b.Suits input)
    (htaps : (taps next.bank).size = b.groups * b.filter.taps)
    (htile : next.tile.Admissible b input.width)
    (hsize : (bench.outputs next.bank).size =
      (input.height + 1 - b.filter.side) * (input.width + 1 - b.filter.side)) :
    ∃ bench', bench.step input taps next = .ok bench' ∧
      ∀ bank, (bench'.outputs bank).size = (bench.outputs bank).size := by
  obtain ⟨tap, htap⟩ := Blocking.exists_hasTaps hinput.groups_pos htaps
  obtain ⟨engine, plane, stats, hrun, htiled⟩ :=
    Engine.runTile_admissible hR hinput htap htile (bench.engines next.engine) hsize
  have hstep : bench.step input taps next = .ok _ := bind_of_eq_ok hrun _
  refine ⟨_, hstep, ?_⟩
  intro bank
  rw [eq_of_step hrun hstep]
  by_cases hbank : bank = next.bank
  · rw [if_pos hbank, hbank]
    exact htiled.size_eq
  · rw [if_neg hbank]

/-- Steps with the right sizes are taken, in whatever order. -/
theorem run_ok (hR : R.Sound b.filter) (hinput : b.Suits input)
    (htaps : ∀ bank, (taps bank).size = b.groups * b.filter.taps)
    (hsteps : ∀ step ∈ steps, step.tile.Admissible b input.width)
    (hsize : ∀ bank, (bench.outputs bank).size =
      (input.height + 1 - b.filter.side) * (input.width + 1 - b.filter.side)) :
    ∃ final, bench.run input taps steps = .ok final := by
  induction steps generalizing bench with
  | nil => exact ⟨bench, rfl⟩
  | cons next rest ih =>
    obtain ⟨hnext, hrest⟩ := List.forall_mem_cons.1 hsteps
    obtain ⟨bench₁, hstep, hkept⟩ :=
      step_ok hR hinput (htaps next.bank) hnext (hsize next.bank)
    obtain ⟨final, hrun⟩ := ih hrest fun bank => (hkept bank).trans (hsize bank)
    refine ⟨final, ?_⟩
    rw [run, List.foldlM_cons, bind_of_eq_ok hstep]
    exact hrun

end Bench

/-- An input that exists has dimensions that are sizes, and channels that can be counted. -/
theorem Blocking.suits_of_size (hR : R.Sound b.filter) (hbits : R.elementBits ≤ 64)
    {input : Planes R.Input} {tile : Tile} (hchannels : 0 < input.channels)
    (hlimit : input.data.size ≤ Memory.limit) (hheight : b.filter.side ≤ input.height)
    (htile : tile.Admissible b input.width) (hgroups : b.groups = R.groups input.channels)
    (hpos : 0 < b.groups) : b.Suits input := by
  have hbound : Memory.limit + 65 < Size.bound := by decide
  have hside := b.filter.side_pos
  have hwidth := htile.side_le_width
  have hsize := input.size_eq
  have hrows : input.height ≤ input.data.size :=
    calc input.height
        ≤ input.channels * input.height := Nat.le_mul_of_pos_left _ hchannels
      _ ≤ input.channels * input.height * input.width := Nat.le_mul_of_pos_right _ (by omega)
      _ = input.data.size := hsize.symm
  have hcolumns : input.width ≤ input.data.size :=
    calc input.width
        ≤ input.channels * input.height * input.width :=
          Nat.le_mul_of_pos_left _ (Nat.mul_pos hchannels (by omega))
      _ = input.data.size := hsize.symm
  have hplanes : input.channels ≤ input.data.size :=
    calc input.channels
        ≤ input.channels * input.height := Nat.le_mul_of_pos_right _ (by omega)
      _ ≤ input.channels * input.height * input.width := Nat.le_mul_of_pos_right _ (by omega)
      _ = input.data.size := hsize.symm
  refine ⟨⟨hheight, hwidth, by omega, by omega, hpos⟩, hgroups, fun group hgroup => ?_⟩
  have hlast := hR.lastChannel_le (hgroups ▸ hgroup)
  omega

namespace Bench

/-- An output plane that does not show who computed it: in the columns that some step covers it
holds what an engine computes that has not computed anything, and in the others what it held
before. -/
structure LikeFresh (b : Blocking) (input : Planes R.Input) (taps : Array R.Tap)
    (covered : Nat → Prop) (initial final : Array R.Output) : Prop where
  size_eq : final.size = initial.size
  covered_eq : ∀ row < input.height + 1 - b.filter.side,
    ∀ col < input.width + 1 - b.filter.side, covered col →
      ∃ x, final[row * (input.width + 1 - b.filter.side) + col]? = some x ∧
        Engine.FreshElement b input taps row col x
  uncovered_eq : ∀ row < input.height + 1 - b.filter.side,
    ∀ col < input.width + 1 - b.filter.side, ¬ covered col →
      final[row * (input.width + 1 - b.filter.side) + col]? =
        initial[row * (input.width + 1 - b.filter.side) + col]?

/-- After any steps of any engines no output plane shows who computed it. -/
theorem likeFresh_of_run {precision : Precision} {b : Blocking}
    {input : Planes precision.regime.Input} {taps : Nat → Array precision.regime.Tap}
    {steps : List Step} {bench final : Bench precision.regime b} (hchannels : 0 < input.channels)
    (hgroups : b.groups = precision.regime.groups input.channels)
    (hsteps : ∀ step ∈ steps, step.tile.Admissible b input.width)
    (h : bench.run input taps steps = .ok final) (bank : Nat) :
    LikeFresh b input (taps bank) (Covered steps bank) (bench.outputs bank)
      (final.outputs bank) := by
  have hpos : 0 < b.groups := hgroups ▸ precision.groups_pos hchannels
  by_cases hbank : ∃ step ∈ steps, step.bank = bank
  · -- the first step of the bank shows that the sizes are right
    obtain ⟨next, hmem, rfl⟩ := hbank
    obtain ⟨engine, plane, result, htile⟩ := runTile_of_run h hmem
    have hadmissible := hsteps next hmem
    have hR := precision.sound_of_operable b.filter
      (Engine.operable_of_runTile htile hadmissible.outWidth_pos hpos)
    have hinput := Engine.suits_of_runTile htile hadmissible.side_le_width hgroups hpos
    obtain ⟨tap, htap⟩ := Blocking.exists_hasTaps hpos (Engine.sizes_of_runTile htile).2.2
    have htiled := tiled_of_run hR hinput htap hsteps h
    refine ⟨htiled.size_eq, ?_, ?_⟩
    · intro row hrow col hcol hcovered
      refine ⟨precision.regime.element b.filter input tap row col, ?_, ?_⟩
      · rw [htiled.get row hrow col hcol, if_pos (covered_iff.1 hcovered)]
      · exact Engine.freshElement_element hR hinput htap hrow hcol
    · intro row hrow col hcol huncovered
      rw [htiled.get row hrow col hcol, if_neg fun hcovers => huncovered (covered_iff.2 hcovers)]
  · have hother : ∀ step ∈ steps, step.bank ≠ bank := fun step hmem heq => hbank ⟨step, hmem, heq⟩
    rw [outputs_of_run hother h]
    refine ⟨rfl, ?_, fun _ _ _ _ _ => rfl⟩
    rintro row - col - ⟨step, hmem, heq, -⟩
    exact absurd heq (hother step hmem)

/-- Two planes that do not show who computed them are the same, if the same columns are covered and
the same content was there before. -/
theorem LikeFresh.same {taps : Array R.Tap} {covered : Nat → Prop}
    {initial final final' : Array R.Output} (h : LikeFresh b input taps covered initial final)
    (h' : LikeFresh b input taps covered initial final')
    (hcovered : ∀ col, covered col → ∃ tile : Tile, tile.Admissible b input.width ∧ tile.Covers col)
    {row col : Nat} (hrow : row < input.height + 1 - b.filter.side)
    (hcol : col < input.width + 1 - b.filter.side) :
    final[row * (input.width + 1 - b.filter.side) + col]? =
      final'[row * (input.width + 1 - b.filter.side) + col]? := by
  by_cases hin : covered col
  · obtain ⟨x, hx, hfresh⟩ := h.covered_eq row hrow col hcol hin
    obtain ⟨x', hx', hfresh'⟩ := h'.covered_eq row hrow col hcol hin
    obtain ⟨tile, htile, hcovers⟩ := hcovered col hin
    -- one tile of one fresh engine computes both
    let plane := Array.replicate
      ((input.height + 1 - b.filter.side) * (input.width + 1 - b.filter.side)) x
    obtain ⟨_, plane₁, _, hrun, hget⟩ :=
      hfresh tile plane htile hcovers Array.size_replicate
    obtain ⟨_, plane₂, _, hrun', hget'⟩ :=
      hfresh' tile plane htile hcovers Array.size_replicate
    obtain ⟨-, rfl, -⟩ := Prod.mk.inj (Except.ok.inj (hrun.symm.trans hrun'))
    rw [hx, hx', ← hget, ← hget']
  · rw [h.uncovered_eq row hrow col hcol hin, h'.uncovered_eq row hrow col hcol hin]

/-- The operands can be multiplied, the input holds a window, and all taps and all output planes
have the right sizes. -/
structure Ready (bench : Bench R b) (input : Planes R.Input) (taps : Nat → Array R.Tap) : Prop where
  operable : R.operable = true
  side_le_height : b.filter.side ≤ input.height
  data_le : input.data.size ≤ Memory.limit
  taps_size : ∀ bank, (taps bank).size = b.groups * b.filter.taps
  outputs_size : ∀ bank, (bench.outputs bank).size =
    (input.height + 1 - b.filter.side) * (input.width + 1 - b.filter.side)

/-- What two runs have in common where a bank is concerned: the taps of the bank, its plane before
any step, and the columns that its steps cover. -/
structure Alike (bank : Nat) (taps taps' : Nat → Array R.Tap) (steps steps' : List Step)
    (bench bench' : Bench R b) : Prop where
  taps_eq : taps' bank = taps bank
  outputs_eq : bench'.outputs bank = bench.outputs bank
  covered_iff : ∀ col, Covered steps' bank col ↔ Covered steps bank col

/-- Two output planes hold the same elements. -/
def SameElements (b : Blocking) (input : Planes R.Input) (plane plane' : Array R.Output) : Prop :=
  ∀ row < input.height + 1 - b.filter.side, ∀ col < input.width + 1 - b.filter.side,
    plane'[row * (input.width + 1 - b.filter.side) + col]? =
      plane[row * (input.width + 1 - b.filter.side) + col]?

/-- Steps of any engines, whatever they hold, are taken where the operands can be multiplied and the
sizes are right. The planes they leave do not show who computed them. So neither the order of the
steps nor the steps and taps of other banks nor what an engine held before can be seen: two runs
that cover the same columns of a bank leave the same plane of it, if it was the same before. And if
several engines share the filters of a plan, in whatever order, they leave what a single engine
leaves. -/
theorem reuse_invisible (precision : Precision) :
    (∀ (b : Blocking) (input : Planes precision.regime.Input), 0 < input.channels →
      b.groups = precision.regime.groups input.channels →
      ∀ (taps : Nat → Array precision.regime.Tap) (steps : List Step)
        (bench : Bench precision.regime b),
        (∀ step ∈ steps, step.tile.Admissible b input.width) →
        (bench.Ready input taps → ∃ final, bench.run input taps steps = .ok final) ∧
        ∀ final, bench.run input taps steps = .ok final → ∀ bank,
          LikeFresh b input (taps bank) (Covered steps bank) (bench.outputs bank)
            (final.outputs bank) ∧
          ∀ (taps' : Nat → Array precision.regime.Tap) (steps' : List Step)
            (bench' final' : Bench precision.regime b),
            (∀ step ∈ steps', step.tile.Admissible b input.width) →
            bench'.run input taps' steps' = .ok final' →
            Alike bank taps taps' steps steps' bench bench' →
            SameElements b input (final.outputs bank) (final'.outputs bank)) ∧
    ∀ (shape : Shape) (unit : VectorUnit) (block : Option Nat) (plan : Plan)
      (output : Array precision.regime.Output) (input : Array precision.regime.Input)
      (weights : Array precision.regime.Weight) (turns : List Turn),
      Plan.make precision.regime shape unit block = .ok plan →
      plan.Matches input weights output → plan.Distributes turns →
      ∀ result, (∃ log, Plan.run precision.regime plan output input weights = .ok (result, log)) ↔
        Plan.runShared precision.regime plan turns output input weights = .ok result := by
  constructor
  · intro b input hchannels hgroups taps steps bench hsteps
    constructor
    · intro hready
      have hR := precision.sound_of_operable b.filter hready.operable
      cases steps with
      | nil => exact ⟨bench, rfl⟩
      | cons next rest =>
        have hinput := Blocking.suits_of_size hR precision.elementBits_le hchannels hready.data_le
          hready.side_le_height (hsteps next List.mem_cons_self) hgroups
          (hgroups ▸ precision.groups_pos hchannels)
        exact run_ok hR hinput hready.taps_size hsteps hready.outputs_size
    · intro final hrun bank
      have hfresh := likeFresh_of_run hchannels hgroups hsteps hrun bank
      refine ⟨hfresh, ?_⟩
      intro taps' steps' bench' final' hsteps' hrun' halike row hrow col hcol
      have hfresh' := likeFresh_of_run hchannels hgroups hsteps' hrun' bank
      rw [halike.taps_eq, halike.outputs_eq,
        funext fun col => propext (halike.covered_iff col)] at hfresh'
      refine hfresh'.same hfresh ?_ hrow hcol
      rintro col ⟨step, hmem, -, hcovers⟩
      exact ⟨step.tile, hsteps step hmem, hcovers⟩
  · intro shape unit block plan output input weights turns hmake hmatch hturns result
    have hplan := (Plan.valid_of_make hmake).2
    exact Plan.run_iff_runShared (precision.sound hplan.accepted) hplan hmatch hturns result

/-- An engine computes two overlapping tiles of one bank and between them a tile of another, whose
first columns it leaves out. And two engines share the filters of a plan, the second filter
first. -/
theorem reuse_invisible_two_banks :
    (∃ final : Bench (Precision.sameWidth .int8).regime ⟨.three, 2, 1, 4, by decide, by decide⟩,
      run ⟨Array.replicate 20 3#8, 1, 4, 5, rfl⟩
        (fun bank => Array.replicate 9 (BitVec.ofNat 8 bank))
        [⟨0, 1, ⟨0, 4, 2⟩⟩, ⟨0, 0, ⟨2, 3, 1⟩⟩, ⟨0, 1, ⟨1, 4, 2⟩⟩]
        ⟨fun _ => Engine.fresh _ _, fun _ => Array.replicate 6 7#8⟩ = .ok final ∧
      (final.outputs 0)[0]? = some 7#8 ∧
      ∃ x, (final.outputs 0)[2]? = some x ∧
        Engine.FreshElement ⟨.three, 2, 1, 4, by decide, by decide⟩
          ⟨Array.replicate 20 3#8, 1, 4, 5, rfl⟩ (Array.replicate 9 0#8) 0 2 x) ∧
    ∃ result log,
      Plan.run (Precision.sameWidth .int8).regime ⟨⟨3, 3, 1, 3, 2⟩, .three, 3, 6, 1⟩
        #[7#8, 7#8] (Array.replicate 9 3#8) (Array.replicate 18 2#8) = .ok (result, log) ∧
      Plan.runShared (Precision.sameWidth .int8).regime ⟨⟨3, 3, 1, 3, 2⟩, .three, 3, 6, 1⟩
        [⟨1, 1⟩, ⟨0, 0⟩] #[7#8, 7#8] (Array.replicate 9 3#8) (Array.replicate 18 2#8) =
          .ok result := by
  obtain ⟨hsteps, hturns⟩ := reuse_invisible (.sameWidth .int8)
  constructor
  · obtain ⟨hrun, hfresh⟩ := hsteps ⟨.three, 2, 1, 4, by decide, by decide⟩
      ⟨Array.replicate 20 3#8, 1, 4, 5, rfl⟩ Nat.one_pos rfl
      (fun bank => Array.replicate 9 (BitVec.ofNat 8 bank))
      [⟨0, 1, ⟨0, 4, 2⟩⟩, ⟨0, 0, ⟨2, 3, 1⟩⟩, ⟨0, 1, ⟨1, 4, 2⟩⟩]
      ⟨fun _ => Engine.fresh _ _, fun _ => Array.replicate 6 7#8⟩ (by
        simp only [List.forall_mem_cons]
        exact ⟨⟨by decide, rfl, by decide, by decide⟩, ⟨by decide, rfl, by decide, by decide⟩,
          ⟨by decide, rfl, by decide, by decide⟩, nofun⟩)
    obtain ⟨final, hfinal⟩ := hrun ⟨rfl, by decide, by decide, fun _ => Array.size_replicate,
      fun _ => Array.size_replicate⟩
    obtain ⟨hlike, -⟩ := hfresh final hfinal 0
    refine ⟨final, hfinal, ?_, ?_⟩
    · refine hlike.uncovered_eq 0 (by decide) 0 (by decide) ?_
      rintro ⟨step, hmem, hbank, hcovers⟩
      revert hbank hcovers
      simp only [List.mem_cons, List.not_mem_nil, or_false] at hmem
      rcases hmem with rfl | rfl | rfl <;> decide
    · refine hlike.covered_eq 0 (by decide) 2 (by decide) ?_
      exact ⟨⟨0, 0, ⟨2, 3, 1⟩⟩, by simp, rfl, by decide⟩
  · have hmake : Plan.make (Precision.sameWidth .int8).regime ⟨3, 3, 1, 3, 2⟩ .standard none =
        .ok ⟨⟨3, 3, 1, 3, 2⟩, .three, 3, 6, 1⟩ := rfl
    have hmatch : Plan.Matches ⟨⟨3, 3, 1, 3, 2⟩, .three, 3, 6, 1⟩ (Array.replicate 9 3#8)
        (Array.replicate 18 2#8) #[7#8, 7#8] :=
      ⟨rfl, rfl, rfl, by decide, by decide, by decide⟩
    have hplan := (Plan.valid_of_make hmake).2
    obtain ⟨log, hrun⟩ := Plan.run_ok (Precision.sound _ hplan.accepted) hplan
      ⟨by decide, nofun⟩ hmatch
    refine ⟨_, log, hrun, ?_⟩
    exact (hturns _ _ _ _ _ _ _ [⟨1, 1⟩, ⟨0, 0⟩] hmake hmatch ⟨by decide, by decide⟩ _).1
      ⟨log, hrun⟩

end Bench

end DirectConv
