import DirectConv.Proofs.Canonical

/-!
# Sound regimes

What the engine relies on when it runs a regime for a filter: lanes and taps can be multiplied, all
columns of the input can be loaded, and a cell that has received all its contributions can be
stored. Every regime a request can choose is sound for the filters its validation accepts.

## Main definitions

- `DirectConv.Regime.Sound`: the laws

## Main statements

- `DirectConv.Accumulator.contribute_ok`: contributions are made in every active lane
- `DirectConv.Accumulator.store_getElem?`: what is stored
-/

namespace DirectConv

/-- The laws of a regime that can be run for filters of the given size. -/
structure Regime.Sound (R : Regime) (filter : FilterSize) : Prop where
  totals : ∃ n, 0 < n ∧ R.totals = .ok n
  /-- Lanes and taps can be multiplied. -/
  operable : R.operable = true
  /-- Every channel belongs to a group. -/
  groups_pos : ∀ {channels}, 0 < channels → 0 < R.groups channels
  /-- Every group has a channel. -/
  groups_le : ∀ channels, R.groups channels ≤ channels
  /-- A load counts no further than a full group behind the last channel. -/
  lastChannel_le : ∀ {channels group}, group < R.groups channels →
    R.lastChannel group ≤ channels + R.elementBits
  /-- The channels of every group have every stretch of a row. -/
  covers : ∀ {planes : Planes R.Input} {group row col count}, group < R.groups planes.channels →
    row < planes.height → col + count ≤ planes.width → R.covers planes group row col count = true
  /-- A cell can be stored after the last group. -/
  settled : ∀ {group groups cell}, group + 1 = groups →
    R.settled (R.endGroup filter group groups cell) = true
  /-- A lane takes no more bytes than an element has bits. -/
  lane_le : R.footprint.lane ≤ R.elementBits
  slot_pos : 2 ≤ R.footprint.slot
  output_pos : 0 < R.footprint.output

section Load

variable {R : Regime} {planes : Planes R.Input} {group row col : Nat}

theorem Regime.readable_iff {count : Nat} : R.readable planes group row col count = true ↔
    R.lastChannel group < Size.bound ∧ R.covers planes group row col count = true := by
  rw [readable, Bool.and_eq_true, decide_eq_true_eq]

/-- A load succeeds exactly where a stretch can be loaded. -/
theorem Regime.loadRow_eq_ok_iff {n : Nat} {register register' : Register R.Lane n} :
    R.loadRow planes group row col register = .ok register' ↔
      R.readable planes group row col register.width = true ∧
        (register.loadWith fun i => R.laneAt planes group row (col + i)) = register' := by
  simp only [loadRow, bind_eq_ok_iff, discard_eq_ok_iff, Size.check_eq_ok_iff,
    require_eq_ok_iff, readable_iff]
  constructor
  · rintro ⟨_, ⟨_, hlast, -⟩, _, hcovers, hresult⟩
    exact ⟨⟨hlast, hcovers⟩, Except.ok.inj hresult⟩
  · rintro ⟨⟨hlast, hcovers⟩, rfl⟩
    exact ⟨(), ⟨_, hlast, rfl⟩, (), hcovers, rfl⟩

theorem Regime.loadRow_ok {n : Nat} {register : Register R.Lane n}
    (h : R.readable planes group row col register.width = true) :
    R.loadRow planes group row col register =
      .ok (register.loadWith fun i => R.laneAt planes group row (col + i)) :=
  loadRow_eq_ok_iff.2 ⟨h, rfl⟩

end Load

namespace Regime.Sound

variable {R : Regime} {filter : FilterSize} {n : Nat}

theorem idle (hR : R.Sound filter) : R.idle = false := by
  obtain ⟨n, hn, htotals⟩ := hR.totals
  rw [Regime.idle, htotals]
  cases n with
  | zero => exact absurd hn (Nat.lt_irrefl 0)
  | succ n => rfl

theorem reserveLanes_ok (hR : R.Sound filter) (h : n * R.footprint.lane ≤ Memory.limit) :
    R.reserveLanes n = .ok () := by
  obtain ⟨k, -, htotals⟩ := hR.totals
  rw [Regime.reserveLanes, htotals]
  exact Memory.reserve_eq_ok_iff.2 h

/-- After a filter row, all its groups included, a cell can be stored. -/
theorem settled_addRows (hR : R.Sound filter) (T : R.Terms) {groups count : Nat}
    (hgroups : 0 < groups) (hcount : 0 < count) (cell : R.Cell) :
    R.settled (T.addRows filter groups count cell) = true := by
  obtain ⟨row, rfl⟩ := Nat.exists_eq_succ_of_ne_zero (Nat.pos_iff_ne_zero.1 hcount)
  obtain ⟨last, rfl⟩ := Nat.exists_eq_succ_of_ne_zero (Nat.pos_iff_ne_zero.1 hgroups)
  rw [Terms.addRows_succ, Terms.addRow, Terms.addGroups_succ, Terms.addGroup]
  exact hR.settled rfl

/-- A cell that has received all its contributions can be stored. -/
theorem settled_cell (hR : R.Sound filter) (T : R.Terms) {groups : Nat} (hgroups : 0 < groups) :
    R.settled (T.cell filter groups) = true :=
  hR.settled_addRows T hgroups filter.side_pos _

end Regime.Sound

namespace Accumulator

variable {R : Regime} {filter : FilterSize} {n m : Nat}

/-- A contribution changes every active total by the lane above it. -/
theorem contribute_ok (hR : R.Sound filter) {acc : Accumulator R n} {register : Register R.Lane m}
    (hwidth : acc.width ≤ register.width) (f : R.Cell → R.Lane → R.Cell) :
    acc.contribute f register =
      .ok (Register.tabulate acc fun i _ => f (acc.lane i) (register.lane i)) := by
  rw [contribute, hR.idle, hR.operable]
  simp only [Bool.false_eq_true, if_false, Bool.true_or]
  exact if_pos hwidth

/-- A finished accumulator is stored, one element for each active total. -/
theorem store_ok (hR : R.Sound filter) {acc : Accumulator R n} {buffer : Array R.Output}
    {start count : Nat} (hsize : start + count ≤ buffer.size) (hwidth : acc.width ≤ count)
    (hsettled : ∀ x < acc.width, R.settled (acc.lane x) = true) :
    acc.store buffer start count =
      .ok (Buffer.overwrite buffer start (acc.active.toList.map R.result)) := by
  have hall : acc.active.all R.settled = true := by
    rw [Array.all_eq_true]
    intro i hi
    rw [Register.getElem_active]
    exact hsettled i (by rwa [Register.size_active] at hi)
  rw [store, hR.idle, hall]
  simp only [Bool.not_false, hsize, hwidth, decide_true, Bool.and_self]
  rfl

/-- What the buffer holds after an accumulator has been stored. -/
theorem store_getElem? (hR : R.Sound filter) {acc : Accumulator R n} (buffer : Array R.Output)
    (start : Nat) {count : Nat} (hsize : start + count ≤ buffer.size) (hwidth : acc.width ≤ count)
    (hsettled : ∀ x < acc.width, R.settled (acc.lane x) = true) :
    ∃ buffer', acc.store buffer start count = .ok buffer' ∧ buffer'.size = buffer.size ∧
      ∀ i, buffer'[i]? = if start ≤ i ∧ i < start + acc.width then
        some (R.result (acc.lane (i - start))) else buffer[i]? := by
  have hlength : (acc.active.toList.map R.result).length = acc.width := by
    rw [List.length_map, Array.length_toList, Register.size_active]
  refine ⟨_, store_ok hR hsize hwidth hsettled, Buffer.size_overwrite _ _ _, fun i => ?_⟩
  rw [Buffer.getElem?_overwrite _ _ _ (by omega), hlength]
  by_cases hi : start ≤ i ∧ i < start + acc.width
  · rw [if_pos hi, if_pos hi, List.getElem?_map, Array.getElem?_toList,
      Array.getElem?_eq_getElem (by rw [Register.size_active]; omega), Register.getElem_active,
      Option.map_some]
  · rw [if_neg hi, if_neg hi]

end Accumulator

end DirectConv
