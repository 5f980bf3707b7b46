import DirectConv.Proofs.Engine.Carry

/-!
# What a row has received so far

If every contribution adds at most a known amount to some measure of a cell, then at no moment of a
tile the measure is larger than what a whole output row can receive. A sum over the steps so far
would have to know where a row begins. The steps to come do not: what they still add to a row ends
at its first contribution, which replaces the cell. So the measure and what is still due are
bounded together, and every step moves an amount from the one to the other.

## Main definitions

- `DirectConv.TileStep.due`: what steps still add to a row before its first contribution
- `DirectConv.Job.Adds`: how much contributions add
- `DirectConv.Engine.Held`: the invariant
- `DirectConv.Engine.TileState.Finished`: what holds when a row is stored

## Main statements

- `DirectConv.Engine.below_of_steps`: the bound at every moment of a tile
- `DirectConv.Engine.reaches_store`: what the slot of a row holds when the row is stored
-/

namespace DirectConv

/-! ### What is still due -/

namespace TileStep

variable (w : Nat → Nat) (row : Nat)

/-- What a step adds to its row, if a contribution of group `g` adds `w g`. -/
def weight : TileStep → Nat
  | contribute _ _ group _ => w group
  | _ => 0

/-- What steps add to the rows they work on. -/
def weights (steps : List TileStep) : Nat := (steps.map (weight w)).sum

/-- What steps still add to an output row before its first contribution, if that is among them. -/
def due (steps : List TileStep) : Nat :=
  weights w ((steps.filter (·.concerns row)).takeWhile (· ≠ contribute row 0 0 0))

variable {w row}

theorem weights_append (steps steps' : List TileStep) :
    weights w (steps ++ steps') = weights w steps + weights w steps' := by
  rw [weights, List.map_append, List.sum_append]
  rfl

theorem weights_flatMap {α : Type} (xs : List α) (f : α → List TileStep) :
    weights w (xs.flatMap f) = (xs.map fun x => weights w (f x)).sum := by
  induction xs with
  | nil => rfl
  | cons x rest ih => rw [List.flatMap_cons, weights_append, ih, List.map_cons, List.sum_cons]

theorem weights_le_of_suffix {steps steps' : List TileStep} (h : steps' <:+ steps) :
    weights w steps' ≤ weights w steps := by
  obtain ⟨before, rfl⟩ := h
  rw [weights_append]
  exact Nat.le_add_left _ _

variable {step : TileStep} {steps : List TileStep}

theorem due_cons_of_not (h : step.concerns row = false) :
    due w row (step :: steps) = due w row steps := by
  rw [due, List.filter_cons_of_neg (by simp [h])]
  rfl

theorem due_cons (h : step.concerns row = true) (hfirst : step ≠ contribute row 0 0 0) :
    due w row (step :: steps) = weight w step + due w row steps := by
  rw [due, List.filter_cons_of_pos h, List.takeWhile_cons_of_pos (by simpa using hfirst), weights,
    List.map_cons, List.sum_cons]
  rfl

theorem due_le_weights : due w row steps ≤ weights w (steps.filter (·.concerns row)) := by
  have happend := List.takeWhile_append_dropWhile
    (p := fun step => decide (step ≠ contribute row 0 0 0)) (l := steps.filter (·.concerns row))
  rw [due, ← happend, weights_append, happend]
  exact Nat.le_add_right _ _

end TileStep

namespace Blocking

open TileStep

variable (b : Blocking) {w : Nat → Nat} {rows row : Nat}

/-- What an output row receives. -/
def rowWeight (w : Nat → Nat) : Nat :=
  b.filter.side * (b.filter.side * ((List.range b.groups).map w).sum)

theorem weights_rowLife : weights w (b.rowLife row) = b.rowWeight w := by
  have hpart (kernelRow : Nat) : weights w (b.rowPart row kernelRow) =
      b.filter.side * ((List.range b.groups).map w).sum := by
    have hgroup (group : Nat) : weights w ((List.range b.filter.side).map
        (contribute row kernelRow group ·) ++ [endGroup row kernelRow group]) =
          b.filter.side * w group := by
      rw [weights_append, weights, List.map_map]
      simp [Function.comp_def, weight, weights]
    rw [rowPart, weights_flatMap, List.map_congr_left fun group _ => hgroup group,
      List.sum_map_mul_left]
  rw [rowLife, weights_append, weights_flatMap, List.map_congr_left fun d _ => hpart d]
  simp [weights, weight, rowWeight]

/-- Nothing is due to a row before its first contribution. -/
theorem due_scheduleSteps (hgroups : 0 < b.groups) (row : Nat) :
    due w row (b.scheduleSteps rows (Schedule.ofRows b.block rows b.block_pos)) = 0 := by
  by_cases hrow : row < rows
  · have hfirst := b.find?_scheduleSteps hgroups hrow
    rw [← List.head?_filter] at hfirst
    obtain ⟨rest, hrest⟩ := List.head?_eq_some_iff.1 hfirst
    rw [due, hrest, List.takeWhile_cons_of_neg (by simp)]
    rfl
  · rw [due, b.filter_scheduleSteps, if_neg hrow]
    rfl

/-- Behind the first contribution to a row the rest of the row is due. -/
theorem weight_add_due_le {steps : List TileStep}
    (hsuffix : contribute row 0 0 0 :: steps <:+
      b.scheduleSteps rows (Schedule.ofRows b.block rows b.block_pos)) :
    w 0 + due w row steps ≤ b.rowWeight w := by
  have hconcerns : (contribute row 0 0 0).concerns row = true := beq_self_eq_true row
  have hfilter := hsuffix.filter (·.concerns row)
  rw [List.filter_cons_of_pos hconcerns, b.filter_scheduleSteps] at hfilter
  split at hfilter
  · calc w 0 + due w row steps
        ≤ w 0 + weights w (steps.filter (·.concerns row)) :=
          Nat.add_le_add_left due_le_weights _
      _ ≤ weights w (b.rowLife row) := weights_le_of_suffix hfilter
      _ = b.rowWeight w := b.weights_rowLife
  · exact absurd (List.suffix_nil.1 hfilter) (List.cons_ne_nil _ _)

/-- The places of the contributions to a row. -/
theorem place_of_mem {kernelRow group column : Nat}
    (hmem : contribute row kernelRow group column ∈
      b.scheduleSteps rows (Schedule.ofRows b.block rows b.block_pos)) :
    kernelRow < b.filter.side ∧ group < b.groups ∧ column < b.filter.side := by
  have hfilter : contribute row kernelRow group column ∈
      (b.scheduleSteps rows (Schedule.ofRows b.block rows b.block_pos)).filter (·.concerns row) :=
    List.mem_filter.2 ⟨hmem, beq_self_eq_true row⟩
  rw [b.filter_scheduleSteps] at hfilter
  split at hfilter
  · simpa [rowLife, rowPart] using hfilter
  · cases hfilter

/-- Steps that are still to come while the first slot belongs to output row `base`: rows without a
slot have not been reached. -/
structure Remaining (w : Nat → Nat) (rows base : Nat) (steps : List TileStep) : Prop where
  suffix : steps <:+ b.scheduleSteps rows (Schedule.ofRows b.block rows b.block_pos)
  within : b.Within rows base steps
  unreached : ∀ row, base + b.slots ≤ row → due w row steps = 0

theorem remaining_scheduleSteps (hgroups : 0 < b.groups) (w : Nat → Nat) (rows : Nat) :
    b.Remaining w rows 0 (b.scheduleSteps rows (Schedule.ofRows b.block rows b.block_pos)) :=
  ⟨List.suffix_rfl, b.within_scheduleSteps rows, fun row _ => b.due_scheduleSteps hgroups row⟩

variable {b} {base : Nat} {step : TileStep} {steps : List TileStep}

theorem Remaining.tail (h : b.Remaining w rows base (step :: steps)) :
    b.Remaining w rows (b.nextBase base step) steps := by
  refine ⟨(List.suffix_cons step steps).trans h.suffix, h.within.2, fun row hrow => ?_⟩
  have hbase : base ≤ b.nextBase base step := by
    rw [nextBase]
    split
    · exact Nat.le_add_right _ _
    · exact Nat.le_refl _
  have hnot : step.concerns row = false := by
    by_contra hconcerns
    have := h.within.1 row (Bool.eq_true_of_not_eq_false hconcerns)
    omega
  rw [← due_cons_of_not hnot]
  exact h.unreached row (by omega)

end Blocking

/-- Contributions of group `g` add at most `w g` to the measure of a cell, the first one of all sets
it to no more than that, and the end of a group adds nothing. -/
structure Job.Adds {R : Regime} (job : Job R) (b : Blocking) (measure : R.Cell → Nat)
    (w : Nat → Nat) : Prop where
  first : ∀ kernelRow < b.filter.side, ∀ group < b.groups, ∀ column < b.filter.side, ∀ tap,
    job.taps[(group * b.filter.side + kernelRow) * b.filter.side + column]? = some tap →
      ∀ lane, measure (R.first lane tap) ≤ w group
  later : ∀ kernelRow < b.filter.side, ∀ group < b.groups, ∀ column < b.filter.side, ∀ tap,
    job.taps[(group * b.filter.side + kernelRow) * b.filter.side + column]? = some tap →
      ∀ cell lane, measure (R.later cell lane tap) ≤ measure cell + w group
  endGroup : ∀ group cell, measure (R.endGroup b.filter group b.groups cell) ≤ measure cell

namespace Engine

open TileStep

variable {R : Regime} {b : Blocking} {job : Job R} {engine : Engine R b} {measure : R.Cell → Nat}
  {w : Nat → Nat} {rows cols base : Nat} {step : TileStep} {steps : List TileStep}

/-- The measure of no cell exceeds what an output row receives. -/
def Below (engine : Engine R b) (measure : R.Cell → Nat) (w : Nat → Nat) : Prop :=
  ∀ slot (_ : slot < b.slots) x, measure (engine.slots[slot].lane x) ≤ b.rowWeight w

theorem Below.fresh (h : measure R.vacantCell.get ≤ b.rowWeight w) :
    (Engine.fresh R b).Below measure w := by
  intro slot hslot x
  simp only [Engine.fresh, Vector.getElem_replicate, Accumulator.fresh, Register.lane_replicate]
  exact h

/-- A tile begins with the cells that the last one left. -/
theorem Below.setTile (h : engine.Below measure w) {tile : Tile} {engine' : Engine R b}
    (hok : engine.setTile tile = .ok engine') : engine'.Below measure w := by
  obtain ⟨register, -, hslots⟩ := bind_eq_ok_iff.1 hok
  split at hslots
  · rw [← Except.ok.inj hslots]
    intro slot hslot x
    simp only [Vector.getElem_map, Register.lane_withWidth]
    exact h slot hslot x
  · cases hslots

/-- Together with what is still due, the measure of no active cell exceeds it either. -/
structure Held (engine : Engine R b) (measure : R.Cell → Nat) (w : Nat → Nat) (base : Nat)
    (steps : List TileStep) : Prop where
  below : engine.Below measure w
  due_le : ∀ slot (_ : slot < b.slots), ∀ x < engine.slots[slot].width,
    measure (engine.slots[slot].lane x) + due w (base + slot) steps ≤ b.rowWeight w

/-- A step that leaves the accumulators alone. -/
theorem Held.pass (h : engine.Held measure w base (step :: steps)) (hweight : weight w step = 0)
    (hstep : ∀ row, step ≠ .contribute row 0 0 0) : engine.Held measure w base steps := by
  refine ⟨h.below, fun slot hslot x hx => ?_⟩
  have hdue : due w (base + slot) (step :: steps) = due w (base + slot) steps := by
    cases hconcerns : step.concerns (base + slot) with
    | true => rw [due_cons hconcerns (hstep _), hweight, Nat.zero_add]
    | false => exact due_cons_of_not hconcerns
  rw [← hdue]
  exact h.due_le slot hslot x hx

/-- A step that changes the accumulator of one row. -/
theorem Held.set (h : engine.Held measure w base (step :: steps)) {row : Nat} (hbase : base ≤ row)
    (hslot : row - base < b.slots) (hother : ∀ r, r ≠ row → step.concerns r = false)
    {acc : Accumulator R b.maxLanes} (hbelow : ∀ x, measure (acc.lane x) ≤ b.rowWeight w)
    (hdue : ∀ x < acc.width, measure (acc.lane x) + due w row steps ≤ b.rowWeight w) :
    ({ engine with slots := engine.slots.set (row - base) acc hslot } : Engine R b).Held measure w
      base steps := by
  refine ⟨fun slot hslot' x => ?_, fun slot hslot' x hx => ?_⟩
  · simp only [Vector.getElem_set]
    split
    · exact hbelow x
    · exact h.below slot hslot' x
  · simp only [Vector.getElem_set] at hx ⊢
    by_cases hself : row - base = slot
    · rw [if_pos hself] at hx ⊢
      rw [show base + slot = row by omega]
      exact hdue x hx
    · rw [if_neg hself] at hx ⊢
      rw [← due_cons_of_not (hother (base + slot) (by omega))]
      exact h.due_le slot hslot' x hx

theorem Held.contribute (hidle : R.idle = false) (hadds : job.Adds b measure w)
    {row kernelRow group column : Nat}
    (hremaining : b.Remaining w rows base (.contribute row kernelRow group column :: steps))
    (h : engine.Held measure w base (.contribute row kernelRow group column :: steps))
    {engine' : Engine R b}
    (hok : Engine.contribute job base (row + kernelRow) group column engine kernelRow =
      .ok engine') : engine'.Held measure w base steps := by
  obtain ⟨tap, htap, hupdate⟩ := updateRow_of_contribute hok
  rw [Nat.add_sub_cancel] at hupdate
  obtain ⟨hslot, hbase, acc, hacc, rfl⟩ := slots_of_updateRow hupdate
  obtain ⟨hkernel, hgroup, hcolumn⟩ :=
    b.place_of_mem (hremaining.suffix.subset List.mem_cons_self)
  have hconcerns : (TileStep.contribute row kernelRow group column).concerns row = true :=
    beq_self_eq_true row
  have hother : ∀ r, r ≠ row →
      (TileStep.contribute row kernelRow group column).concerns r = false :=
    fun r hr => beq_false_of_ne hr.symm
  have hrow : base + (row - base) = row := Nat.add_sub_cancel' hbase
  by_cases hfirst : kernelRow = 0 ∧ group = 0 ∧ column = 0
  · rw [if_pos hfirst] at hacc
    obtain ⟨-, rfl⟩ := Accumulator.tabulate_of_contribute hacc hidle
    obtain ⟨rfl, rfl, rfl⟩ := hfirst
    have hroom := b.weight_add_due_le (w := w) hremaining.suffix
    refine h.set hbase hslot hother (fun x => ?_) fun x hx => ?_
    · rw [Register.lane_tabulate]
      split
      · exact ((hadds.first 0 hkernel 0 hgroup 0 hcolumn tap htap _).trans
          (Nat.le_add_right _ _)).trans hroom
      · exact h.below _ hslot x
    · rw [Register.lane_tabulate_of_lt engine.slots[row - base] _ hx]
      exact (Nat.add_le_add_right (hadds.first 0 hkernel 0 hgroup 0 hcolumn tap htap _) _).trans
        hroom
  · rw [if_neg hfirst] at hacc
    obtain ⟨-, rfl⟩ := Accumulator.tabulate_of_contribute hacc hidle
    have hadded : ∀ x < engine.slots[row - base].width,
        measure (R.later (engine.slots[row - base].lane x) (engine.register.lane x) tap) +
          due w row steps ≤ b.rowWeight w := by
      intro x hx
      have hheld := h.due_le _ hslot x hx
      have hlater := hadds.later kernelRow hkernel group hgroup column hcolumn tap htap
        (engine.slots[row - base].lane x) (engine.register.lane x)
      rw [hrow, due_cons hconcerns (fun heq => hfirst (by simpa using heq)), weight] at hheld
      omega
    refine h.set hbase hslot hother (fun x => ?_) fun x hx => ?_
    · rw [Register.lane_tabulate]
      split
      · rename_i hx
        exact (Nat.le_add_right _ _).trans (hadded x hx)
      · exact h.below _ hslot x
    · rw [Register.lane_tabulate_of_lt engine.slots[row - base] _ hx]
      exact hadded x hx

theorem Held.endGroup (hadds : job.Adds b measure w) {row kernelRow group : Nat}
    (h : engine.Held measure w base (.endGroup row kernelRow group :: steps))
    {engine' : Engine R b}
    (hok : engine.updateRow base row (fun acc => return acc.endGroup b.filter group b.groups) =
      .ok engine') : engine'.Held measure w base steps := by
  obtain ⟨hslot, hbase, acc, hacc, rfl⟩ := slots_of_updateRow hok
  obtain rfl := Except.ok.inj hacc
  have hconcerns : (TileStep.endGroup row kernelRow group).concerns row = true :=
    beq_self_eq_true row
  have hheld := h.due_le _ hslot
  rw [Nat.add_sub_cancel' hbase, due_cons hconcerns nofun,
    show weight w (.endGroup row kernelRow group) = 0 from rfl, Nat.zero_add] at hheld
  refine h.set hbase hslot (fun r hr => beq_false_of_ne hr.symm) (fun x => ?_) fun x hx => ?_
  · rw [Accumulator.endGroup, Register.map, Register.lane_tabulate]
    split
    · exact (hadds.endGroup group _).trans (h.below _ hslot x)
    · exact h.below _ hslot x
  · rw [Accumulator.endGroup, Register.map,
      Register.lane_tabulate_of_lt engine.slots[row - base] _ hx]
    exact (Nat.add_le_add_right (hadds.endGroup group _) _).trans (hheld x hx)

/-- The slots that a rotation moves behind the others belong to rows that have not been reached. -/
theorem Held.rotate (hremaining : b.Remaining w rows base (.rotate :: steps))
    (h : engine.Held measure w base (.rotate :: steps)) :
    engine.rotate.Held measure w (base + b.block) steps := by
  refine ⟨fun slot hslot x => ?_, fun slot hslot x hx => ?_⟩
  · simp only [Engine.rotate, Vector.getElem_ofFn]
    exact h.below _ (Nat.mod_lt _ b.slots_pos) x
  · simp only [Engine.rotate, Vector.getElem_ofFn] at hx ⊢
    by_cases hcarried : slot + b.block < b.slots
    · have hheld := h.due_le _ hcarried x
      have hget : engine.slots.get ⟨(slot + b.block) % b.slots, Nat.mod_lt _ b.slots_pos⟩ =
          engine.slots[slot + b.block] :=
        congrArg engine.slots.get (Fin.ext (Nat.mod_eq_of_lt hcarried))
      rw [hget] at hx ⊢
      rw [due_cons_of_not rfl] at hheld
      rw [show base + b.block + slot = base + (slot + b.block) by omega]
      exact hheld hx
    · have hunreached : due w (base + b.block + slot) steps = 0 := by
        rw [← due_cons_of_not (show TileStep.rotate.concerns _ = false from rfl)]
        exact hremaining.unreached _ (by omega)
      rw [hunreached, Nat.add_zero]
      exact h.below _ (Nat.mod_lt _ b.slots_pos) x

/-- Every step moves what it adds from what is due to what is held. -/
theorem Held.perform (hidle : R.idle = false) (hadds : job.Adds b measure w)
    {state state' : TileState R b} (hremaining : b.Remaining w rows state.base (step :: steps))
    (h : state.engine.Held measure w state.base (step :: steps))
    (hok : Engine.perform job cols state step = .ok state') :
    state'.engine.Held measure w state'.base steps := by
  cases step with
  | load row group =>
    obtain ⟨register, -, hstate⟩ := bind_eq_ok_iff.1 hok
    rw [← Except.ok.inj hstate]
    have hpass := h.pass rfl nofun
    exact ⟨hpass.below, hpass.due_le⟩
  | contribute row kernelRow group column =>
    obtain ⟨engine₁, hcontribute, hstate⟩ := bind_eq_ok_iff.1 hok
    rw [← Except.ok.inj hstate]
    exact h.contribute hidle hadds hremaining hcontribute
  | slide =>
    rw [← Except.ok.inj hok]
    have hpass := h.pass rfl nofun
    exact ⟨hpass.below, hpass.due_le⟩
  | endGroup row kernelRow group =>
    obtain ⟨engine₁, hend, hstate⟩ := bind_eq_ok_iff.1 hok
    rw [← Except.ok.inj hstate]
    exact h.endGroup hadds hend
  | store row =>
    obtain ⟨_, -, hstore⟩ := bind_eq_ok_iff.1 hok
    obtain ⟨plane, -, hstate⟩ := bind_eq_ok_iff.1 hstore
    rw [← Except.ok.inj hstate]
    exact h.pass rfl nofun
  | rotate =>
    rw [← Except.ok.inj hok]
    exact h.rotate hremaining

theorem held_of_steps (hidle : R.idle = false) (hadds : job.Adds b measure w)
    {state state' : TileState R b} {rest : List TileStep}
    (hremaining : b.Remaining w rows state.base (steps ++ rest))
    (h : state.engine.Held measure w state.base (steps ++ rest))
    (hok : steps.foldlM (Engine.perform job cols) state = .ok state') :
    state'.engine.Held measure w state'.base rest := by
  induction steps generalizing state with
  | nil =>
    obtain rfl := Except.ok.inj hok
    exact h
  | cons step steps ih =>
    obtain ⟨state₁, hstep, hsteps⟩ := foldlM_cons_eq_ok hok
    refine ih ?_ (h.perform hidle hadds hremaining hstep) hsteps
    rw [base_of_perform hstep]
    exact hremaining.tail

/-- At no moment of a tile does the measure of a cell exceed what an output row receives. -/
theorem below_of_steps (hidle : R.idle = false) (hgroups : 0 < b.groups)
    (hadds : job.Adds b measure w) (hengine : engine.Below measure w) {count : Nat}
    {plane : Array R.Output} {state : TileState R b}
    (hok : ((b.scheduleSteps rows (Schedule.ofRows b.block rows b.block_pos)).take count).foldlM
      (Engine.perform job cols) ⟨0, engine, plane⟩ = .ok state) :
    state.engine.Below measure w := by
  have hsteps := List.take_append_drop count
    (b.scheduleSteps rows (Schedule.ofRows b.block rows b.block_pos))
  have hremaining := b.remaining_scheduleSteps hgroups w rows
  have hheld : engine.Held measure w 0
      (b.scheduleSteps rows (Schedule.ofRows b.block rows b.block_pos)) := by
    refine ⟨hengine, fun slot hslot x _ => ?_⟩
    rw [b.due_scheduleSteps hgroups]
    exact hengine slot hslot x
  rw [← hsteps] at hremaining hheld
  exact (held_of_steps hidle hadds hremaining hheld hok).below

/-! ### The cells that are stored -/

variable {tap : Nat → Nat → Nat → R.Tap} {started : Engine R b} {plane initial : Array R.Output}
  {row : Nat}

/-- The slot of output row `row` holds the finished cells of the row. -/
def TileState.Finished (state : TileState R b) (job : Job R) (tap : Nat → Nat → Nat → R.Tap)
    (row : Nat) : Prop :=
  state.base ≤ row ∧ ∃ hslot : row - state.base < b.slots, ∀ x < job.tile.outWidth,
    state.engine.slots[row - state.base].lane x = (job.terms tap row x).cell b.filter b.groups

/-- Within a block a row is finished when it is stored. -/
theorem blockSteps_reaches (hR : R.Sound b.filter) (hjob : job.Fits b tap)
    (hsize : initial.size = job.rows b * job.cols b) {count slot : Nat} (hcount : count ≤ b.block)
    (hrows : base + count ≤ job.rows b) (h : engine.Carries job tap base (base + b.filter.carry))
    (hplane : job.Stored b tap initial base plane) (hslot : slot < count) :
    ∃ before after state,
      b.blockSteps (job.rows b) ⟨base, count⟩ = before ++ .store (base + slot) :: after ∧
      before.foldlM (perform job (job.cols b)) ⟨base, engine, plane⟩ = .ok state ∧
      state.Finished job tap (base + slot) := by
  have hside := b.filter.carry_add_one
  have hheight := hjob.side_le_height
  have hrows' : job.rows b = job.planes.height + 1 - b.filter.side := rfl
  have hslots : b.slots = b.block + b.filter.carry := rfl
  obtain ⟨engine₁, hfeed, h₁⟩ := feedRows_carries hR hjob.feeds count (Or.inr (Nat.le_refl _))
    (by omega) (by omega) h
  have hreach : ∀ inputRow ∈ (⟨base, count⟩ : RowBlock).fed b.filter.carry,
      kernelRows b.filter.side (job.rows b) inputRow ≠ [] :=
    fun _ => RowBlock.kernelRows_ne_nil b.filter.carry_add_one hrows
  have hfed := rowSteps_foldlM job (job.rows b) (job.cols b) base plane hreach engine
  rw [RowBlock.fed, hfeed] at hfed
  have hstored : (⟨base, count⟩ : RowBlock).stored = List.range' base slot ++
      (base + slot) :: List.range' (base + slot + 1) (count - slot - 1) := by
    rw [← List.range'_succ, List.range'_append_1,
      show slot + (count - slot - 1 + 1) = count by omega]
    rfl
  -- the rows before it are stored first, which changes the plane only
  obtain ⟨state, hstores, ⟨rfl, rfl⟩, -⟩ := foldlM_range'_ok
    (f := fun state row => perform job (job.cols b) state (.store row))
    (fun row (state : TileState R b) => (state.base = base ∧ state.engine = engine₁) ∧
      job.Stored b tap initial row state.plane) (s := ⟨base, engine₁, plane⟩) ⟨⟨rfl, rfl⟩, hplane⟩
    fun row state hrow (hrow' : row < base + slot) hstate => by
      obtain ⟨⟨rfl, rfl⟩, hplane'⟩ := hstate
      obtain ⟨slot', rfl⟩ := Nat.exists_eq_add_of_le hrow
      obtain ⟨plane', hstore, hplane''⟩ :=
        storeRow_stored hR hjob hsize (by omega) (by omega) (by omega) h₁ hplane'
      refine ⟨{ state with plane := plane' }, ?_, ⟨rfl, rfl⟩, hplane''⟩
      rw [perform, decide_eq_true hrow, Nat.add_sub_cancel_left]
      exact bind_of_eq_ok hstore _
  rw [Blocking.blockSteps, hstored, List.map_append, List.map_cons, ← List.append_assoc]
  refine ⟨_, _, state, rfl, ?_, Nat.le_add_right _ _, ?_⟩
  · rw [List.foldlM_append, RowBlock.fed, hfed]
    exact List.foldlM_map.trans hstores
  · rw [Nat.add_sub_cancel_left]
    exact ⟨by omega, fun x hx => h₁.lane_eq_cell hjob.groups_pos _ (by omega) (by omega) hx⟩

/-- The same for the blocks from an output row on. -/
theorem blocksSteps_reaches (hR : R.Sound b.filter) (hjob : job.Fits b tap)
    (hsize : initial.size = job.rows b * job.cols b)
    (h : engine.Carries job tap base (base + b.filter.carry))
    (hplane : job.Stored b tap initial base plane) (hbase : base ≤ row) (hrow : row < job.rows b) :
    ∃ before after state,
      b.blocksSteps (job.rows b) (Schedule.startingAt b.block (job.rows b) b.block_pos base) =
        before ++ .store row :: after ∧
      before.foldlM (perform job (job.cols b)) ⟨base, engine, plane⟩ = .ok state ∧
      state.Finished job tap row := by
  induction base using Schedule.startingAt.induct b.block (job.rows b) b.block_pos
    generalizing engine plane with
  | case1 base hlt ih =>
    rw [Schedule.startingAt, if_pos hlt, Blocking.blocksSteps, List.flatMap_cons, List.append_assoc]
    by_cases hblock : row < base + b.block
    · obtain ⟨slot, rfl⟩ := Nat.exists_eq_add_of_le hbase
      obtain ⟨before, after, state, hsteps, hstate, hfinished⟩ := blockSteps_reaches hR hjob hsize
        (Nat.le_refl _) (by omega) h hplane (Nat.lt_of_add_lt_add_left hblock)
      rw [hsteps, List.append_assoc, List.append_assoc, List.cons_append]
      exact ⟨before, _, state, rfl, hstate, hfinished⟩
    · obtain ⟨engine₁, plane₁, hfinish, h₁, hplane₁⟩ :=
        finishBlock_stored hR hjob hsize b.block (Nat.le_refl _) (by omega) h hplane
      have hblocks := blockSteps_foldlM job (job.rows b) (job.cols b) plane ⟨base, b.block⟩
        (fun row => RowBlock.kernelRows_ne_nil b.filter.carry_add_one
          (show base + b.block ≤ job.rows b by omega)) engine
      rw [hfinish] at hblocks
      obtain ⟨before, after, state, hsteps, hstate, hfinished⟩ :=
        ih (rotate_carries h₁) hplane₁ (by omega)
      refine ⟨b.blockSteps (job.rows b) ⟨base, b.block⟩ ++ .rotate :: before, after, state, ?_, ?_,
        hfinished⟩
      · rw [Blocking.blocksSteps] at hsteps
        rw [hsteps, List.append_assoc, List.append_assoc]
        rfl
      · rw [List.foldlM_append, hblocks]
        exact hstate
  | case2 base hlast =>
    obtain ⟨slot, rfl⟩ := Nat.exists_eq_add_of_le hbase
    rw [Schedule.startingAt, if_neg hlast, Blocking.blocksSteps, List.flatMap_nil, List.nil_append]
    exact blockSteps_reaches hR hjob hsize (by omega) (by omega) h hplane (by omega)

/-- Every output row of a tile is stored, and is finished when it is stored. -/
theorem reaches_store (hR : R.Sound b.filter) (hjob : job.Fits b tap)
    {cell : Nat → Nat → R.Cell} (hstarted : started.HasCells job.tile cell)
    (hsize : plane.size = job.rows b * job.cols b) (hrow : row < job.rows b) :
    ∃ before after state,
      b.scheduleSteps (job.rows b) (Schedule.ofRows b.block (job.rows b) b.block_pos) =
        before ++ .store row :: after ∧
      before.foldlM (perform job (job.cols b)) ⟨0, started, plane⟩ = .ok state ∧
      state.Finished job tap row := by
  have hside := b.filter.carry_add_one
  have hrows' : job.rows b = job.planes.height + 1 - b.filter.side := rfl
  have hreach : ∀ row ∈ List.range b.filter.carry,
      kernelRows b.filter.side (job.rows b) row ≠ [] := by
    intro inputRow hinput
    have hlt : inputRow < b.filter.carry := List.mem_range.1 hinput
    exact kernelRows_ne_nil b.filter.side_pos (by omega) (by omega)
  obtain ⟨engine₁, hpreload, h₁⟩ := feedRows_carries hR hjob.feeds b.filter.carry (Or.inl rfl)
    (by rw [Blocking.slots]; omega) (by omega) hstarted.carries
  have hfed := rowSteps_foldlM job (job.rows b) (job.cols b) 0 plane hreach started
  rw [List.range_eq_range', hpreload] at hfed
  obtain ⟨before, after, state, hsteps, hstate, hfinished⟩ := blocksSteps_reaches hR hjob hsize h₁
    (job.stored_zero b tap plane) (Nat.zero_le row) hrow
  refine ⟨(List.range b.filter.carry).flatMap (b.rowSteps (job.rows b)) ++ before, after, state, ?_,
    ?_, hfinished⟩
  · rw [Blocking.scheduleSteps, Schedule.ofRows, hsteps, List.append_assoc]
  · rw [List.foldlM_append, List.range_eq_range', hfed]
    exact hstate

end Engine

end DirectConv
