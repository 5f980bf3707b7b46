import DirectConv.Register.Program

/-!
# Lanes over a register program

Every operation is a change of width or sets the active lanes and no other. So a lane that the
width hides at each operation keeps what it held, whatever the operations are, and shows it again
once the width grows. Slides of one width add up.

## Main definitions

- `DirectConv.Register.Instruction.source`: what a load reads
- `DirectConv.Register.Instruction.Fits`: what an operation asks of its operands
- `DirectConv.Register.HiddenThroughout`: a program never sets a lane

## Main statements

- `DirectConv.Register.Instruction.lane_apply`: the frame of one operation
- `DirectConv.Register.lane_run_of_hidden`: the frame of a program
- `DirectConv.Register.slideDown_slideDown`: two slides are one
- `DirectConv.Register.lanes_of_program`: what programs do to the lanes
-/

namespace DirectConv.Register

variable {α : Type} {n : Nat}

/-! ### Slides -/

theorem lane_slideDown (r : Register α n) (vacant : α) (offset : Nat) {i : Nat}
    (h : i < r.width) : (r.slideDown vacant offset).lane i =
      if i + offset < r.width then r.lane (i + offset) else vacant := by
  rw [slideDown_eq, lane_tabulate_of_lt _ _ h]

theorem lane_slideDown_of_le (r : Register α n) (vacant : α) (offset : Nat) {i : Nat}
    (h : r.width ≤ i) : (r.slideDown vacant offset).lane i = r.lane i := by
  rw [slideDown_eq, lane_tabulate_of_le _ _ h]

/-- What the first slide has moved out of the width, the second finds vacant. -/
theorem slideDown_slideDown (r : Register α n) (vacant : α) (a b : Nat) :
    (r.slideDown vacant a).slideDown vacant b = r.slideDown vacant (a + b) := by
  rw [slideDown_eq r vacant a, slideDown_eq, slideDown_eq r]
  refine (tabulate_tabulate r _ _).trans (tabulate_congr r fun i _ => ?_)
  rw [width_tabulate]
  by_cases hb : i + b < r.width
  · rw [if_pos hb, lane_tabulate_of_lt _ _ hb, show i + b + a = i + (a + b) by omega]
  · rw [if_neg hb, if_neg (by omega)]

/-! ### One operation -/

namespace Instruction

/-- What a load from arrays reads: as many elements as each of its arrays has. -/
def source : Instruction α → Option (Array α)
  | load source => some source
  | loadMap f source => some (source.map f)
  | loadZip f first second => some (Array.zipWith f first second)
  | _ => none

/-- What an operation on `r` asks of its operands. -/
def Fits (r : Register α n) : Instruction α → Prop
  | setWidth width => width ≤ n
  | load source => r.width ≤ source.size
  | loadMap _ source => r.width ≤ source.size
  | loadZip _ first second => r.width ≤ first.size ∧ r.width ≤ second.size
  | combine _ source => r.width ≤ source.width
  | _ => True

theorem apply_of_source {r : Register α n} {next : Instruction α} {source : Array α}
    (h : next.source = some source) : next.apply r = r.load source := by
  cases next <;> cases h <;> rfl

theorem fits_of_source {r : Register α n} {next : Instruction α} {source : Array α}
    (h : next.source = some source) : next.Fits r ↔ r.width ≤ source.size := by
  cases next with
  | load =>
    cases h
    exact Iff.rfl
  | loadMap =>
    cases h
    rw [Array.size_map]
    exact Iff.rfl
  | loadZip =>
    cases h
    rw [Array.size_zipWith]
    exact Nat.le_min.symm
  | setWidth | loadWith | slideDown | fill | combine => cases h

/-- An operation succeeds on operands that fit. -/
theorem apply_ok {r : Register α n} {next : Instruction α} (h : next.Fits r) :
    ∃ r', next.apply r = (r', none) := by
  cases hsource : next.source with
  | some source =>
    rw [apply_of_source hsource, load_of_le ((fits_of_source hsource).1 h)]
    exact ⟨_, rfl⟩
  | none =>
    cases next with
    | setWidth width => exact ⟨_, congrArg r.checked (dif_pos h)⟩
    | combine f source => exact ⟨_, congrArg r.checked (if_pos h)⟩
    | load | loadMap | loadZip => cases hsource
    | loadWith | slideDown | fill => exact ⟨_, rfl⟩

/-- A load keeps the lanes beyond the width, and all lanes if its source is too short. -/
theorem lane_load (r : Register α n) (source : Array α) {i : Nat} (hi : r.width ≤ i) :
    (r.load source).1.lane i = r.lane i := by
  rcases Nat.lt_or_ge source.size r.width with hsize | hsize
  · rw [load_short hsize]
  · rw [load_of_le hsize]
    exact lane_tabulate_of_le r _ hi

/-- The frame of an operation, whether it fails or not: a change of width keeps all lanes, every
other operation the lanes at or beyond the width. -/
theorem lane_apply (r : Register α n) (next : Instruction α) {i : Nat}
    (hi : (∃ width, next = .setWidth width) ∨ r.width ≤ i) :
    (next.apply r).1.lane i = r.lane i := by
  cases next with
  | setWidth width =>
    rw [apply, Register.setWidth]
    split <;> rfl
  | load source => exact lane_load r source (hi.resolve_left nofun)
  | loadMap f source => exact lane_load r _ (hi.resolve_left nofun)
  | loadZip f first second => exact lane_load r _ (hi.resolve_left nofun)
  | loadWith f => exact lane_tabulate_of_le r _ (hi.resolve_left nofun)
  | slideDown vacant offset => exact lane_slideDown_of_le r vacant offset (hi.resolve_left nofun)
  | fill value => exact lane_tabulate_of_le r _ (hi.resolve_left nofun)
  | combine f source =>
    rw [apply, Register.combine]
    split
    · exact lane_tabulate_of_le r _ (hi.resolve_left nofun)
    · rfl

end Instruction

/-! ### Programs -/

theorem run_cons_of_ok {r r' : Register α n} {next : Instruction α}
    (h : next.apply r = (r', none)) (rest : List (Instruction α)) :
    r.run (next :: rest) = r'.run rest := by
  rw [run, h]

theorem run_cons_of_fault {r r' : Register α n} {next : Instruction α} {fault : Fault}
    (h : next.apply r = (r', some fault)) (rest : List (Instruction α)) :
    r.run (next :: rest) = (r', some fault) := by
  rw [run, h]

/-- A program that has not failed goes on with what follows it. -/
theorem run_append {r r' : Register α n} {program : List (Instruction α)}
    (h : r.run program = (r', none)) (rest : List (Instruction α)) :
    r.run (program ++ rest) = r'.run rest := by
  induction program generalizing r with
  | nil =>
    cases h
    rfl
  | cons next program ih =>
    rcases happly : next.apply r with ⟨r₁, _ | fault⟩
    · rw [run_cons_of_ok happly] at h
      rw [List.cons_append, run_cons_of_ok happly, ih h]
    · rw [run_cons_of_fault happly] at h
      cases h

/-- At each operation of the program that is carried out, lane `i` is not active, or the operation
is a change of width. -/
def HiddenThroughout (r : Register α n) (program : List (Instruction α)) (i : Nat) : Prop :=
  ∀ before next after r', program = before ++ next :: after → r.run before = (r', none) →
    (∃ width, next = .setWidth width) ∨ r'.width ≤ i

theorem HiddenThroughout.tail {r r' : Register α n} {next : Instruction α}
    {rest : List (Instruction α)} {i : Nat} (h : HiddenThroughout r (next :: rest) i)
    (happly : next.apply r = (r', none)) : HiddenThroughout r' rest i := by
  intro before instruction after r₂ hrest hrun
  refine h (next :: before) instruction after r₂ (by rw [hrest, List.cons_append]) ?_
  rw [run_cons_of_ok happly, hrun]

/-- The frame of a program. -/
theorem lane_run_of_hidden {r : Register α n} {program : List (Instruction α)} {i : Nat}
    (h : HiddenThroughout r program i) : (r.run program).1.lane i = r.lane i := by
  induction program generalizing r with
  | nil => rfl
  | cons next rest ih =>
    have hframe := Instruction.lane_apply r next (h [] next rest r rfl rfl)
    rcases happly : next.apply r with ⟨r', _ | fault⟩
    · rw [happly] at hframe
      rw [run_cons_of_ok happly, ih (h.tail happly), hframe]
    · rw [happly] at hframe
      rw [run_cons_of_fault happly, hframe]

/-- A program of single slides, in one. -/
theorem run_replicate_slideDown (r : Register α n) (vacant : α) (count : Nat) :
    ∃ r', r.run (.replicate count (.slideDown vacant 1)) = (r', none) ∧ r'.width = r.width ∧
      ∀ i < r.width, r'.lane i =
        if i + count < r.width then r.lane (i + count) else vacant := by
  induction count generalizing r with
  | zero => exact ⟨r, rfl, rfl, fun i hi => by rw [Nat.add_zero, if_pos hi]⟩
  | succ count ih =>
    obtain ⟨r', hrun, hwidth, hlane⟩ := ih (r.slideDown vacant 1)
    rw [width_slideDown] at hwidth hlane
    refine ⟨r', hrun, hwidth, fun i hi => ?_⟩
    rw [hlane i hi]
    by_cases hcount : i + count < r.width
    · rw [if_pos hcount, lane_slideDown r vacant 1 hcount, Nat.add_assoc]
    · rw [if_neg hcount, if_neg (by omega)]

/-- A load whose arrays are long enough, followed by single slides, shows each element that many
lanes below its own, and nothing from beyond the width. -/
theorem run_load_slides {r : Register α n} {next : Instruction α} {source : Array α}
    (hsource : next.source = some source) (hsize : r.width ≤ source.size) (vacant : α)
    (count : Nat) :
    ∃ r', r.run (next :: .replicate count (.slideDown vacant 1)) = (r', none) ∧
      r'.width = r.width ∧
      ∀ i < r.width, r'.lane i =
        if i + count < r.width then source.getD (i + count) vacant else vacant := by
  have hload : next.apply r = (r.tabulate fun i hi => source[i], none) := by
    rw [Instruction.apply_of_source hsource, load_of_le hsize]
  obtain ⟨r', hrun, hwidth, hlane⟩ :=
    run_replicate_slideDown (r.tabulate fun i hi => source[i]) vacant count
  refine ⟨r', by rw [run_cons_of_ok hload, hrun], hwidth, fun i hi => ?_⟩
  rw [hlane i hi, width_tabulate]
  by_cases hcount : i + count < r.width
  · rw [if_pos hcount, if_pos hcount, lane_tabulate_of_lt _ _ hcount]
    simp [Nat.lt_of_lt_of_le hcount hsize]
  · rw [if_neg hcount, if_neg hcount]

/-- What programs do to the lanes of a register. A lane hidden at each operation of a program keeps
its content. After a program that has not failed, and in front of any further operation, the lanes
at or beyond the width are safe from it; the operation succeeds if its operands fit; if it is a
load from too short an array, it fails and leaves the register as it was; slides move the content
down inside the width, add up, and show a loaded row from any lane on. -/
theorem lanes_of_program (r : Register α n) (program : List (Instruction α)) (vacant : α) :
    (∀ i, HiddenThroughout r program i → (r.run program).1.lane i = r.lane i) ∧
    ∀ r', r.run program = (r', none) →
      (∀ next i, r'.width ≤ i → (r.run (program ++ [next])).1.lane i = r'.lane i) ∧
      (∀ next : Instruction α, next.Fits r' →
        ∃ r'', r.run (program ++ [next]) = (r'', none)) ∧
      (∀ (next : Instruction α) (source : Array α), next.source = some source →
        source.size < r'.width → r.run (program ++ [next]) = (r', some .outOfRange)) ∧
      (∀ offset, ∃ r'', r.run (program ++ [.slideDown vacant offset]) = (r'', none) ∧
        r''.width = r'.width ∧ ∀ i < r'.width, r''.lane i =
          if i + offset < r'.width then r'.lane (i + offset) else vacant) ∧
      (∀ a b, r.run (program ++ [.slideDown vacant a, .slideDown vacant b]) =
        r.run (program ++ [.slideDown vacant (a + b)])) ∧
      ∀ (next : Instruction α) (source : Array α) (count : Nat), next.source = some source →
        r'.width ≤ source.size →
        ∃ r'', r.run (program ++ next :: .replicate count (.slideDown vacant 1)) = (r'', none) ∧
          r''.width = r'.width ∧ ∀ i < r'.width, r''.lane i =
            if i + count < r'.width then source.getD (i + count) vacant else vacant := by
  refine ⟨fun i => lane_run_of_hidden, fun r' hrun => ⟨?hidden, ?fits, ?short, ?slide, ?add, ?row⟩⟩
  case hidden =>
    intro next i hi
    rw [run_append hrun]
    refine lane_run_of_hidden fun before instruction after r₂ hsplit hbefore => ?_
    obtain rfl : before = [] := by simp_all [List.cons_eq_append_iff]
    cases hbefore
    exact .inr hi
  case fits =>
    intro next hfits
    obtain ⟨r'', hnext⟩ := Instruction.apply_ok hfits
    exact ⟨r'', by rw [run_append hrun, run_cons_of_ok hnext]; rfl⟩
  case short =>
    intro next source hsource hsize
    have hshort : next.apply r' = (r', some .outOfRange) := by
      rw [Instruction.apply_of_source hsource, load_short hsize]
    rw [run_append hrun, run_cons_of_fault hshort]
  case slide =>
    intro offset
    refine ⟨r'.slideDown vacant offset, ?_, width_slideDown r' vacant offset,
      fun i hi => lane_slideDown r' vacant offset hi⟩
    rw [run_append hrun, run_cons_of_ok rfl]
    rfl
  case add =>
    intro a b
    rw [run_append hrun, run_append hrun, run_cons_of_ok rfl, run_cons_of_ok rfl,
      run_cons_of_ok rfl, slideDown_slideDown]
  case row =>
    intro next source count hsource hsize
    rw [run_append hrun]
    exact run_load_slides hsource hsize vacant count

/-- Five of eight lanes are loaded and slid by three: the sixth lane, which the width hides, is not
pulled in. -/
theorem lanes_of_slid_row :
    ∃ r' r'' : Register Int 8,
      (replicate 8 7).run [.setWidth 5, .load #[1, 2, 3, 4, 5]] = (r', none) ∧
      (replicate 8 7).run ([.setWidth 5, .load #[1, 2, 3, 4, 5]] ++ [.slideDown 0 3]) =
        (r'', none) ∧
      r''.lane 1 = 5 ∧ r''.lane 2 = 0 ∧ r''.lane 5 = 7 := by
  obtain ⟨-, hafter⟩ := lanes_of_program (replicate 8 (7 : Int))
    [.setWidth 5, .load #[1, 2, 3, 4, 5]] 0
  obtain ⟨hhidden, -, -, hslide, -⟩ := hafter _ rfl
  obtain ⟨r'', hrun, -, hlane⟩ := hslide 3
  have hsixth := hhidden (.slideDown 0 3) 5 (by decide)
  rw [hrun] at hsixth
  exact ⟨_, r'', rfl, hrun, (hlane 1 (by decide)).trans (by decide),
    (hlane 2 (by decide)).trans (by decide), hsixth.trans (by decide)⟩

end DirectConv.Register
