import DirectConv.Engine
import DirectConv.Proofs.Loop
import DirectConv.Proofs.Sound

/-!
# What an engine holds

The engine is described by what its active lanes show: a function from slots and columns to cells.
Lanes beyond the active width are not mentioned, since no operation of a tile reads them.

## Main definitions

- `DirectConv.Engine.HasCells`: the active cells of all slots

## Main statements

- `DirectConv.Engine.updateRow_hasCells`: an update of one accumulator
- `DirectConv.Engine.foldlM_hasCells`: one update for each of the given filter rows
- `DirectConv.Engine.setTile_hasCells`, `DirectConv.Engine.rotate_hasCells`: the other changes
-/

namespace DirectConv.Engine

variable {R : Regime} {b : Blocking}

/-- The register and the accumulators have the widths of `tile`, and slot `k` holds `cell k x` in
column `x` of the tile. -/
structure HasCells (engine : Engine R b) (tile : Tile) (cell : Nat → Nat → R.Cell) : Prop where
  register_width : engine.register.width = tile.inWidth
  slot_width : ∀ k (_ : k < b.slots), engine.slots[k].width = tile.outWidth
  slot_lane : ∀ k (_ : k < b.slots), ∀ x < tile.outWidth, engine.slots[k].lane x = cell k x

theorem HasCells.congr {engine : Engine R b} {tile : Tile} {cell cell' : Nat → Nat → R.Cell}
    (h : engine.HasCells tile cell)
    (hcell : ∀ k < b.slots, ∀ x < tile.outWidth, cell k x = cell' k x) :
    engine.HasCells tile cell' :=
  ⟨h.register_width, h.slot_width, fun k hk x hx => (h.slot_lane k hk x hx).trans (hcell k hk x hx)⟩

/-- Another register of the same width changes no cell. -/
theorem HasCells.withRegister {engine : Engine R b} {tile : Tile} {cell : Nat → Nat → R.Cell}
    (h : engine.HasCells tile cell) (register : Register R.Lane b.maxLanes)
    (hwidth : register.width = tile.inWidth) :
    HasCells { engine with register } tile cell :=
  ⟨hwidth, h.slot_width, h.slot_lane⟩

/-- An update of the accumulator of one output row changes the cells of that row. -/
theorem updateRow_hasCells {engine : Engine R b} {tile : Tile} {cell : Nat → Nat → R.Cell}
    (h : engine.HasCells tile cell) {base row : Nat}
    {f : Accumulator R b.maxLanes → Except Fault (Accumulator R b.maxLanes)}
    {g : Nat → R.Cell → R.Cell} (hbase : base ≤ row) (hrow : row < base + b.slots)
    (hf : ∀ acc : Accumulator R b.maxLanes, acc.width = tile.outWidth →
      ∃ acc', f acc = .ok acc' ∧ acc'.width = tile.outWidth ∧
        ∀ x < tile.outWidth, acc'.lane x = g x (acc.lane x)) :
    ∃ engine', engine.updateRow base row f = .ok engine' ∧ engine'.register = engine.register ∧
      engine'.HasCells tile fun k x => if base + k = row then g x (cell k x) else cell k x := by
  have hslot : row - base < b.slots := by omega
  obtain ⟨acc, hacc, hwidth, hlane⟩ := hf engine.slots[row - base] (h.slot_width _ hslot)
  refine ⟨{ engine with slots := engine.slots.set (row - base) acc }, ?_, rfl, ?_⟩
  · rw [updateRow, dif_pos ⟨hbase, hslot⟩]
    exact bind_of_eq_ok hacc _
  · refine ⟨h.register_width, fun k hk => ?_, fun k hk x hx => ?_⟩
    · rw [Vector.getElem_set]
      split
      · exact hwidth
      · exact h.slot_width k hk
    · rw [Vector.getElem_set]
      by_cases hk' : row - base = k
      · rw [if_pos hk', if_pos (by omega), hlane x hx, h.slot_lane _ hslot x hx, hk']
      · rw [if_neg hk', if_neg (by omega), h.slot_lane k hk x hx]

/-- If the step of filter row `d` changes the cells of output row `row - d`, the steps of several
filter rows change the cells of several output rows, each of them once. -/
theorem foldlM_hasCells {f : Engine R b → Nat → Except Fault (Engine R b)} (tile : Tile)
    (base : Nat) {row : Nat} {g : Nat → Nat → R.Cell → R.Cell}
    {register : Register R.Lane b.maxLanes} {kernelRows : List Nat} (hnodup : kernelRows.Nodup)
    (hle : ∀ d ∈ kernelRows, d ≤ row)
    (hf : ∀ d ∈ kernelRows, ∀ (engine : Engine R b) (cell : Nat → Nat → R.Cell),
      engine.register = register → engine.HasCells tile cell →
      ∃ engine', f engine d = .ok engine' ∧ engine'.register = register ∧
        engine'.HasCells tile fun k x => if base + k = row - d then g d x (cell k x) else cell k x)
    {engine : Engine R b} {cell : Nat → Nat → R.Cell} (hregister : engine.register = register)
    (h : engine.HasCells tile cell) :
    ∃ engine', kernelRows.foldlM f engine = .ok engine' ∧ engine'.register = register ∧
      engine'.HasCells tile fun k x =>
        if base + k ≤ row ∧ row - (base + k) ∈ kernelRows then g (row - (base + k)) x (cell k x)
        else cell k x := by
  -- all filter rows are multiplied with the same register, so it is fixed in the induction
  induction kernelRows generalizing engine cell with
  | nil => exact ⟨engine, rfl, hregister, h.congr fun k _ x _ => by simp⟩
  | cons d rest ih =>
    obtain ⟨hd, hrest⟩ := List.nodup_cons.1 hnodup
    have hdle : d ≤ row := hle d List.mem_cons_self
    obtain ⟨engine₁, hf₁, hregister₁, h₁⟩ := hf d List.mem_cons_self engine cell hregister h
    obtain ⟨engine₂, hf₂, hregister₂, h₂⟩ := ih hrest
      (fun e he => hle e (List.mem_cons_of_mem _ he))
      (fun e he => hf e (List.mem_cons_of_mem _ he)) hregister₁ h₁
    refine ⟨engine₂, by rw [List.foldlM_cons, bind_of_eq_ok hf₁, hf₂], hregister₂,
      h₂.congr fun k _ x _ => ?_⟩
    by_cases hk : base + k = row - d
    · -- the row of `d` itself, to which no other filter row leads
      have hkd : row - (base + k) = d := by omega
      rw [hkd, if_neg fun hmem => hd hmem.2, if_pos hk, if_pos ⟨by omega, List.mem_cons_self⟩]
    · have hkd : base + k ≤ row → row - (base + k) ≠ d := by omega
      rw [if_neg hk]
      by_cases hmem : base + k ≤ row ∧ row - (base + k) ∈ rest
      · rw [if_pos hmem, if_pos ⟨hmem.1, List.mem_cons_of_mem _ hmem.2⟩]
      · rw [if_neg hmem, if_neg fun h => hmem ⟨h.1, (List.mem_cons.1 h.2).resolve_left (hkd h.1)⟩]

/-- A tile can be started from any state. -/
theorem setTile_hasCells (engine : Engine R b) {tile : Tile} (hin : tile.inWidth ≤ b.maxLanes)
    (hout : tile.outWidth ≤ b.maxLanes) :
    ∃ engine' cell, engine.setTile tile = .ok engine' ∧ engine'.HasCells tile cell := by
  refine ⟨⟨engine.register.withWidth tile.inWidth hin,
    engine.slots.map (·.withWidth tile.outWidth hout)⟩,
    fun k x => if h : k < b.slots then engine.slots[k].lane x else R.vacantCell.get, ?_, ?_⟩
  · rw [setTile, Register.setWidth, dif_pos hin, bind_of_eq_ok rfl, dif_pos hout]
    rfl
  · refine ⟨rfl, fun k hk => ?_, fun k hk x hx => ?_⟩
    · rw [Vector.getElem_map]
      rfl
    · rw [Vector.getElem_map, dif_pos hk]
      rfl

/-- A tile is only started where it fits a register. -/
theorem hasCells_of_setTile {engine started : Engine R b} {tile : Tile}
    (h : engine.setTile tile = .ok started) : ∃ cell, started.HasCells tile cell := by
  obtain ⟨register, hregister, hslots⟩ := bind_eq_ok_iff.1 h
  rw [Register.setWidth] at hregister
  split at hregister
  · rename_i hin
    split at hslots
    · rename_i hout
      obtain ⟨started', cell, hstarted, hcells⟩ := engine.setTile_hasCells hin hout
      obtain rfl : started' = started := Except.ok.inj (hstarted.symm.trans h)
      exact ⟨cell, hcells⟩
    · cases hslots
  · cases hregister

/-- After a rotation the first slots hold what stood a block behind them. -/
theorem rotate_hasCells {engine : Engine R b} {tile : Tile} {cell : Nat → Nat → R.Cell}
    (h : engine.HasCells tile cell) :
    engine.rotate.HasCells tile fun k x => cell ((k + b.block) % b.slots) x := by
  refine ⟨h.register_width, fun k hk => ?_, fun k hk x hx => ?_⟩
  · simp only [rotate, Vector.getElem_ofFn]
    exact h.slot_width _ (Nat.mod_lt _ b.slots_pos)
  · simp only [rotate, Vector.getElem_ofFn]
    exact h.slot_lane _ (Nat.mod_lt _ b.slots_pos) x hx

end DirectConv.Engine
