import DirectConv.Proofs.Engine.Demands
import DirectConv.Proofs.Engine.Tile
import DirectConv.Proofs.Precision

/-!
# The elements of one tile

A tile stores in every row and column what is read off a lane that has received the contributions
of its window in canonical order: filter row, then channel group, then filter column. The tile need
not read all the columns its windows reach. A short tile meets vacant lanes there, at the right edge
of what it has read. The engine can hold anything before, since the first contribution to a lane
replaces it.

Tiles are computed only for operands that can be multiplied, and for groups that belong to the
input: an engine can have more groups than the input has.

## Main definitions

- `DirectConv.Job.Computable`: what a tile of some width needs

## Main statements

- `DirectConv.Engine.runTile_canonical`: which tiles are computed, and what they store
-/

namespace DirectConv

namespace Planes

variable {α : Type} {planes : Planes α} {channel row col count : Nat}

/-- A channel of which the first row can be read belongs to the input. -/
theorem lt_channels_of_covers (hcount : 0 < count)
    (h : planes.covers channel 0 col count = true) : channel < planes.channels := by
  rw [covers, Bool.and_eq_true, hasRow, decide_eq_true_eq, decide_eq_true_eq, rowStart,
    planes.size_eq, Nat.add_zero, ← Nat.succ_mul] at h
  obtain ⟨hrow, hcols⟩ := h
  have hwidth : 0 < planes.width := by omega
  -- the row ends inside the buffer, so its plane begins before the last one ends
  have hstarts : channel * planes.height + 1 ≤ planes.channels * planes.height :=
    Nat.le_of_mul_le_mul_right hrow hwidth
  exact Nat.lt_of_mul_lt_mul_right hstarts

theorem covers_of_first_row (hcount : 0 < count) (hrow : row < planes.height)
    (h : planes.covers channel 0 col count = true) :
    planes.covers channel row col count = true := by
  have hchannel := lt_channels_of_covers hcount h
  rw [covers, Bool.and_eq_true, decide_eq_true_eq] at h
  exact planes.covers_of_lt hchannel hrow h.2

end Planes

/-- The channels of a group that have columns in the first row have them in every row. -/
theorem Precision.covers_of_first_row (precision : Precision)
    {planes : Planes precision.regime.Input} {group row col count : Nat} (hcount : 0 < count)
    (hrow : row < planes.height) (h : precision.regime.covers planes group 0 col count = true) :
    precision.regime.covers planes group row col count = true := by
  cases precision with
  | sameWidth element => cases element <;> exact Planes.covers_of_first_row hcount hrow h
  | widening narrow => exact Planes.covers_of_first_row hcount hrow h
  | packed lane activationBits weightBits flushEvery =>
    change Packed.covers planes group 0 col count = true at h
    change Packed.covers planes group row col count = true
    rw [Packed.covers, Bool.and_eq_true, Bool.or_eq_true] at h ⊢
    obtain ⟨hfirst, hsecond⟩ := h
    exact ⟨Planes.covers_of_first_row hcount hrow hfirst,
      hsecond.imp id (Planes.covers_of_first_row hcount hrow)⟩
  | bitSerial word activationBits weightBits =>
    change BitSerial.covers _ planes group 0 col count = true at h
    change BitSerial.covers _ planes group row col count = true
    rw [BitSerial.covers, Bool.or_eq_true, List.all_eq_true] at h ⊢
    refine h.imp id ?_
    intro hall member hmember
    exact Planes.covers_of_first_row hcount hrow (hall member hmember)

/-- A group of which the first row can be loaded can be loaded from every row. -/
theorem Precision.readable_of_first_row (precision : Precision)
    {planes : Planes precision.regime.Input} {group row col count : Nat} (hcount : 0 < count)
    (hrow : row < planes.height) (h : precision.regime.readable planes group 0 col count = true) :
    precision.regime.readable planes group row col count = true := by
  rw [Regime.readable_iff] at h ⊢
  exact ⟨h.1, precision.covers_of_first_row hcount hrow h.2⟩

/-- What a tile of some width needs of the input, the operands and the output plane. -/
structure Job.Computable {R : Regime} (job : Job R) (b : Blocking) (plane : Array R.Output) :
    Prop where
  side_le_height : b.filter.side ≤ job.planes.height
  height_lt : job.planes.height + 1 < Size.bound
  width_lt : job.planes.width + 1 < Size.bound
  plane_size : plane.size = job.rows b * job.cols b
  /-- Lanes and taps can be multiplied. -/
  operable : R.operable = true
  /-- The first row of every group of the engine can be loaded. -/
  readable : ∀ group < b.groups,
    R.readable job.planes group 0 job.tile.col job.tile.inWidth = true

namespace Engine

variable {R : Regime} {b : Blocking} {job : Job R} {engine : Engine R b} {plane : Array R.Output}
  {result : Engine R b × Array R.Output × TileStats}

theorem computable_of_runTile (h : engine.runTile job plane = .ok result)
    (hwidth : 0 < job.tile.outWidth) (hgroups : 0 < b.groups) : job.Computable b plane := by
  obtain ⟨hrows, hsize, -⟩ := sizes_of_runTile h
  obtain ⟨hheight, hwidth_lt⟩ := extents_of_runTile h
  exact ⟨by omega, hheight, hwidth_lt, hsize, operable_of_runTile h hwidth hgroups,
    readable_of_runTile h⟩

theorem runTile_of_computable (precision : Precision) {b : Blocking} {job : Job precision.regime}
    {tap : Nat → Nat → Nat → precision.regime.Tap} {plane : Array precision.regime.Output}
    (h : job.Computable b plane) (hgroups : 0 < b.groups) (htaps : b.HasTaps job.taps tap)
    (htile : job.tile.Inside b job.planes.width) (hwidth : 0 < job.tile.outWidth)
    (engine : Engine precision.regime b) :
    ∃ engine' plane' stats, engine.runTile job plane = .ok (engine', plane', stats) ∧
      job.Stored b tap plane (job.rows b) plane' := by
  have houtput := htile.output_le
  have hspans : b.Spans job.planes :=
    ⟨h.side_le_height, by omega, h.height_lt, h.width_lt, hgroups⟩
  have hreadable : ∀ group < b.groups, ∀ row < job.planes.height,
      precision.regime.readable job.planes group row job.tile.col job.tile.inWidth = true := by
    intro group hgroup row hrow
    exact precision.readable_of_first_row (hwidth.trans_le htile.outWidth_le) hrow
      (h.readable group hgroup)
  have hfits : job.Fits b tap := { hspans, htaps, htile with readable := hreadable }
  obtain ⟨engine', plane', hok, hstored⟩ :=
    runTile_ok (precision.sound_of_operable b.filter h.operable) hfits engine h.plane_size
  exact ⟨engine', plane', _, hok, hstored⟩

/-- A tile of some width is computed by an engine in any state if and only if it is computable.
Then every element of its columns is what is read off a lane that has received the contributions of
its window in canonical order, whatever the lane held before, and no other element changes. -/
theorem runTile_canonical (precision : Precision) {b : Blocking} {job : Job precision.regime}
    {tap : Nat → Nat → Nat → precision.regime.Tap} (hgroups : 0 < b.groups)
    (htaps : b.HasTaps job.taps tap) (htile : job.tile.Inside b job.planes.width)
    (hwidth : 0 < job.tile.outWidth) (engine : Engine precision.regime b)
    (plane : Array precision.regime.Output) :
    ((∃ result, engine.runTile job plane = .ok result) ↔ job.Computable b plane) ∧
      ∀ engine' plane' stats, engine.runTile job plane = .ok (engine', plane', stats) →
        plane'.size = plane.size ∧ ∀ row < job.rows b,
          (∀ x < job.tile.outWidth, ∀ start,
            plane'[row * job.cols b + (job.tile.col + x)]? = some (precision.regime.result
              ((job.terms tap row x).addRows b.filter b.groups b.filter.side start))) ∧
          ∀ col < job.cols b, ¬ job.tile.Covers col →
            plane'[row * job.cols b + col]? = plane[row * job.cols b + col]? := by
  have hcomputable : ∀ {result}, engine.runTile job plane = .ok result →
      job.Computable b plane := fun hok => computable_of_runTile hok hwidth hgroups
  have hrun : job.Computable b plane → ∃ engine' plane' stats,
      engine.runTile job plane = .ok (engine', plane', stats) ∧
        job.Stored b tap plane (job.rows b) plane' := fun h =>
    runTile_of_computable precision h hgroups htaps htile hwidth engine
  refine ⟨⟨?_, ?_⟩, ?_⟩
  · rintro ⟨result, hok⟩
    exact hcomputable hok
  · intro h
    obtain ⟨engine', plane', stats, hok, -⟩ := hrun h
    exact ⟨_, hok⟩
  · intro engine' plane' stats hok
    obtain ⟨engine₁, plane₁, stats₁, hok₁, hstored⟩ := hrun (hcomputable hok)
    obtain ⟨-, rfl, -⟩ : engine' = engine₁ ∧ plane' = plane₁ ∧ stats = stats₁ := by
      simpa using hok.symm.trans hok₁
    refine ⟨hstored.size_eq, ?_⟩
    intro row hrow
    constructor
    · intro x hx start
      have houtput := htile.output_le
      have hcol : job.tile.col + x < job.cols b := by
        rw [Job.cols]
        omega
      rw [hstored.get row hrow _ hcol, if_pos (by omega), Nat.add_sub_cancel_left, Job.element,
        Regime.Terms.addRows_side_eq_cell _ hgroups]
    · intro col hcol hcovers
      rw [hstored.get row hrow col hcol, if_neg fun h => hcovers h.2]

/-- A short tile of three rows that hold the numbers one to five: the windows of its two columns end
after two columns and after one, and the third column of the plane stays as it is. -/
theorem runTile_canonical_short :
    ∃ engine' plane' stats,
      (fresh (Precision.sameWidth .int8).regime ⟨.three, 2, 1, 4, by decide, by decide⟩).runTile
        ⟨⟨#[1#8, 2#8, 3#8, 4#8, 5#8, 1#8, 2#8, 3#8, 4#8, 5#8, 1#8, 2#8, 3#8, 4#8, 5#8],
          1, 3, 5, rfl⟩, Array.replicate 9 1#8, ⟨0, 2, 2⟩⟩ #[7#8, 7#8, 7#8] =
            .ok (engine', plane', stats) ∧
      plane'[0]? = some 9#8 ∧ plane'[1]? = some 6#8 ∧ plane'[2]? = some 7#8 := by
  obtain ⟨hiff, hvalues⟩ := @runTile_canonical (.sameWidth .int8)
    ⟨.three, 2, 1, 4, by decide, by decide⟩
    ⟨⟨#[1#8, 2#8, 3#8, 4#8, 5#8, 1#8, 2#8, 3#8, 4#8, 5#8, 1#8, 2#8, 3#8, 4#8, 5#8], 1, 3, 5, rfl⟩,
      Array.replicate 9 1#8, ⟨0, 2, 2⟩⟩
    (fun _ _ _ => 1#8) (by decide) ⟨rfl, by decide⟩
    ⟨by decide, by decide, by decide, by decide⟩ (by decide) (fresh _ _) #[7#8, 7#8, 7#8]
  obtain ⟨⟨engine', plane', stats⟩, hok⟩ :=
    hiff.2 ⟨by decide, by decide, by decide, rfl, rfl, by decide⟩
  obtain ⟨-, hrows⟩ := hvalues engine' plane' stats hok
  obtain ⟨hcovered, huncovered⟩ := hrows 0 (by decide)
  exact ⟨engine', plane', stats, hok, hcovered 0 (by decide) 0#8, hcovered 1 (by decide) 0#8,
    huncovered 2 (by decide) (by decide)⟩

end Engine

end DirectConv
