import DirectConv.Proofs.Engine.Tile
import DirectConv.Proofs.Tiling
import DirectConv.Plan
import DirectConv.Window

/-!
# The convolution of a regime

An output element is a function of the window it belongs to: no tile, block or lane takes part in
it. Here the convolution of a regime is defined by its elements, and tiles that read all the columns
they need are shown to compute them.

## Main definitions

- `DirectConv.Regime.element`: one output element
- `DirectConv.Regime.convolution`: the output
- `DirectConv.Plan.Tiled`: what a list of tiles leaves in an output plane

## Main statements

- `DirectConv.Engine.runTile_tiled`: the effect of one tile
- `DirectConv.Plan.runTiles_ok`: the effect of a list of tiles on an output plane
-/

namespace DirectConv

namespace Regime

variable (R : Regime)

/-- What meets in the output element in row `row` and column `col`. -/
def windowTerms (planes : Planes R.Input) (tap : Nat → Nat → Nat → R.Tap) (row col : Nat) :
    R.Terms where
  lane kernelRow group column := R.laneAt planes group (row + kernelRow) (col + column)
  tap := tap

/-- The output element in row `row` and column `col`. -/
def element (filter : FilterSize) (planes : Planes R.Input) (tap : Nat → Nat → Nat → R.Tap)
    (row col : Nat) : R.Output :=
  R.result ((R.windowTerms planes tap row col).cell filter (R.groups planes.channels))

/-- The part of the filter bank that belongs to filter `index`. -/
def bank (filter : FilterSize) (channels : Nat) (weights : Array R.Weight) (index : Nat) :
    Array R.Weight :=
  weights.extract (index * (channels * filter.taps))
    (index * (channels * filter.taps) + channels * filter.taps)

/-- The taps of filter `index`. -/
def bankTap (filter : FilterSize) (channels : Nat) (weights : Array R.Weight)
    (index kernelRow group column : Nat) : R.Tap :=
  R.tapAt (R.bank filter channels weights index) channels filter group
    (kernelRow * filter.side + column)

/-- The output: one plane for each of the filters. -/
def convolution (filter : FilterSize) (planes : Planes R.Input) (weights : Array R.Weight)
    (outputs : Nat) : Array R.Output :=
  let rows := planes.height + 1 - filter.side
  let columns := planes.width + 1 - filter.side
  Array.ofFn fun p : Fin (outputs * rows * columns) =>
    let position := Window.position rows columns p
    R.element filter planes (R.bankTap filter planes.channels weights position.filter)
      position.row position.column

end Regime

variable {R : Regime} {b : Blocking} {planes : Planes R.Input} {taps : Array R.Tap}
  {tap : Nat → Nat → Nat → R.Tap}

/-- A tile that reads all the columns it needs computes the cells of the convolution. -/
theorem Job.cell_eq_cell {job : Job R}
    (hwide : job.tile.inWidth = job.tile.outWidth + b.filter.carry) {row x : Nat}
    (hx : x < job.tile.outWidth) :
    (job.terms tap row x).cell b.filter b.groups =
      (R.windowTerms job.planes tap row (job.tile.col + x)).cell b.filter b.groups := by
  refine Regime.Terms.cell_congr fun kernelRow _ group _ column hcolumn => ?_
  have hside := b.filter.carry_add_one
  refine ⟨?_, rfl⟩
  simp only [Job.terms, Job.lane, Regime.windowTerms]
  rw [if_pos (by omega), Nat.add_assoc]

theorem Job.element_eq_element {job : Job R} (hplanes : b.Suits job.planes)
    (hwide : job.tile.inWidth = job.tile.outWidth + b.filter.carry) {row x : Nat}
    (hx : x < job.tile.outWidth) :
    job.element b tap row x = R.element b.filter job.planes tap row (job.tile.col + x) := by
  rw [Job.element, Regime.element, ← hplanes.groups_eq, Job.cell_eq_cell hwide hx]

/-- What a list of tiles leaves in an output plane: the elements of the columns that some tile
covers, and everything else as it was. -/
structure Plan.Tiled (b : Blocking) (planes : Planes R.Input) (tap : Nat → Nat → Nat → R.Tap)
    (tiles : List Tile) (initial final : Array R.Output) : Prop where
  size_eq : final.size = initial.size
  get : ∀ row < planes.height + 1 - b.filter.side, ∀ col < planes.width + 1 - b.filter.side,
    final[row * (planes.width + 1 - b.filter.side) + col]? =
      if ∃ tile ∈ tiles, tile.Covers col then some (R.element b.filter planes tap row col)
      else initial[row * (planes.width + 1 - b.filter.side) + col]?

namespace Plan

/-- No tile leaves the plane as it was. -/
theorem Tiled.nil (plane : Array R.Output) : Tiled b planes tap [] plane plane :=
  ⟨rfl, fun _ _ _ _ => (if_neg (by simp)).symm⟩

/-- A column that several tiles cover gets the same element from each of them, so lists of tiles can
be joined. -/
theorem Tiled.append {first second : List Tile} {initial middle final : Array R.Output}
    (h : Tiled b planes tap first initial middle) (h' : Tiled b planes tap second middle final) :
    Tiled b planes tap (first ++ second) initial final := by
  refine ⟨h'.size_eq.trans h.size_eq, ?_⟩
  intro row hrow col hcol
  rw [h'.get row hrow col hcol, h.get row hrow col hcol]
  by_cases hsecond : ∃ tile ∈ second, tile.Covers col
  · obtain ⟨tile, hmem, hcovers⟩ := hsecond
    rw [if_pos ⟨tile, hmem, hcovers⟩, if_pos ⟨tile, List.mem_append_right _ hmem, hcovers⟩]
  · rw [if_neg hsecond]
    refine if_congr ?_ rfl rfl
    constructor
    · rintro ⟨tile, hmem, hcovers⟩
      exact ⟨tile, List.mem_append_left _ hmem, hcovers⟩
    · rintro ⟨tile, hmem, hcovers⟩
      rcases List.mem_append.1 hmem with hfirst | hsecond'
      · exact ⟨tile, hfirst, hcovers⟩
      · exact absurd ⟨tile, hsecond', hcovers⟩ hsecond

end Plan

/-- A tile that reads all the columns it needs is computed by an engine in any state. -/
theorem Engine.runTile_tiled (hR : R.Sound b.filter) (job : Job R) (hplanes : b.Suits job.planes)
    (htaps : b.HasTaps job.taps tap) (hinside : job.tile.Inside b job.planes.width)
    (hwide : job.tile.inWidth = job.tile.outWidth + b.filter.carry) (engine : Engine R b)
    {plane : Array R.Output} (hsize : plane.size = job.rows b * job.cols b) :
    ∃ engine' plane', engine.runTile job plane =
        .ok (engine', plane', statsOf (Schedule.ofRows b.block (job.rows b) b.block_pos)) ∧
      Plan.Tiled b job.planes tap [job.tile] plane plane' := by
  obtain ⟨engine', plane', hrun, hstored⟩ :=
    runTile_ok hR (hplanes.fits hR htaps hinside) engine hsize
  refine ⟨engine', plane', hrun, hstored.size_eq, ?_⟩
  intro row hrow col hcol
  refine (hstored.get row hrow col hcol).trans (if_ctx_congr ?_ ?_ fun _ => rfl)
  · constructor
    · intro h
      exact ⟨job.tile, List.mem_singleton_self _, h.2⟩
    · rintro ⟨tile, hmem, hcovers⟩
      obtain rfl := List.mem_singleton.1 hmem
      exact ⟨hrow, hcovers⟩
  · rintro ⟨tile, hmem, hcovers⟩
    obtain rfl := List.mem_singleton.1 hmem
    rw [Job.element_eq_element hplanes hwide
      (Nat.sub_lt_left_of_lt_add hcovers.1 hcovers.2), Nat.add_sub_cancel' hcovers.1]

namespace Plan

/-- Tiles are computed one after the other, by an engine in any state. -/
theorem runTiles_ok (hR : R.Sound b.filter) (hplanes : b.Suits planes) (htaps : b.HasTaps taps tap)
    {tiles : List Tile} (htiles : ∀ tile ∈ tiles, tile.Inside b planes.width ∧
      tile.inWidth = tile.outWidth + b.filter.carry) (progress : Progress R b)
    (hsize : progress.buffer.size =
      (planes.height + 1 - b.filter.side) * (planes.width + 1 - b.filter.side)) :
    ∃ progress', tiles.foldlM (runTile planes taps) progress = .ok progress' ∧
      Tiled b planes tap tiles progress.buffer progress'.buffer := by
  induction tiles generalizing progress with
  | nil => exact ⟨progress, rfl, .nil progress.buffer⟩
  | cons tile rest ih =>
    obtain ⟨hinside, hwide⟩ := htiles tile List.mem_cons_self
    obtain ⟨engine, plane, hrun, htiled⟩ := Engine.runTile_tiled hR { planes, taps, tile } hplanes
      htaps hinside hwide progress.engine hsize
    obtain ⟨progress', hrest, htiled'⟩ := ih (fun tile h => htiles tile (List.mem_cons_of_mem _ h))
      ⟨engine, plane, progress.log.push (Engine.report b tile _)⟩ (htiled.size_eq.trans hsize)
    refine ⟨progress', ?_, htiled.append htiled'⟩
    rw [List.foldlM_cons, runTile, bind_of_eq_ok hrun]
    exact hrest

end Plan

end DirectConv
