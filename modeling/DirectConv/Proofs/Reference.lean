import DirectConv.Proofs.Dot
import DirectConv.Proofs.Execute
import Mathlib.Tactic.Ring

/-!
# Windows of a request

Where the engine finds the factors of a term, the convolution by definition finds the same ones: a
lane is read from the planes at the index of the input element, and a tap from the part of the bank
that belongs to the filter at the index of the weight.

## Main statements

- `DirectConv.Plan.read_planes`, `DirectConv.Regime.getD_bank`: the two factors of a term
-/

namespace DirectConv

open Window

variable {plan : Plan} {R : Regime}

theorem Plan.read_planes {α : Type} {input : Array α} (h : input.size = plan.shape.inputSize)
    (vacant : α) (position : Position) (term : Term) :
    (plan.planes input h).read vacant term.channel (position.row + term.row)
        (position.column + term.column) =
      input.getD (inputIndex plan.shape position term) vacant := by
  simp only [Planes.read, Planes.rowStart, inputIndex, Plan.planes, Nat.add_assoc]

theorem Regime.getD_bank {weights : Array R.Weight} (hplan : plan.Valid R) (vacant : R.Weight)
    (position : Position) {term : Term} (hterm : term.Inside plan.shape) :
    (R.bank plan.filter plan.shape.channels weights position.filter).getD
        (term.channel * plan.filter.taps + (term.row * plan.filter.side + term.column)) vacant =
      weights.getD (weightIndex plan.shape position term) vacant := by
  have hside := hplan.side_eq
  have hinside : term.channel * plan.filter.taps + (term.row * plan.filter.side + term.column) <
      plan.shape.channels * plan.filter.taps :=
    mul_add_lt_mul hterm.channel_lt
      (mul_add_lt_mul (hside ▸ hterm.row_lt) (hside ▸ hterm.column_lt))
  have hindex : weightIndex plan.shape position term =
      position.filter * (plan.shape.channels * plan.filter.taps) +
        (term.channel * plan.filter.taps + (term.row * plan.filter.side + term.column)) := by
    rw [weightIndex, hside, FilterSize.taps]
    ring
  rw [hindex, bank, Array.getD_eq_getD_getElem?, Array.getD_eq_getD_getElem?,
    Array.getElem?_extract]
  refine congrArg (Option.getD · vacant) (ite_eq_left_iff.2 fun hend => ?_)
  exact (Array.getElem?_eq_none (by omega)).symm

/-- A convolution is known as soon as its elements are. -/
theorem Plan.convolution_eq (hplan : plan.Valid R) {input : Array R.Input}
    (hinput : input.size = plan.shape.inputSize) {weights : Array R.Weight}
    {element : Position → R.Output}
    (h : ∀ position : Position, position.Inside plan.shape →
      R.element plan.filter (plan.planes input hinput)
        (R.bankTap plan.filter plan.shape.channels weights position.filter) position.row
          position.column = element position) :
    R.convolution plan.filter (plan.planes input hinput) weights plan.shape.outputs =
      Array.ofFn fun p : Fin plan.shape.outputSize =>
        element (position plan.shape.outHeight plan.shape.outWidth p) := by
  have hrows : (plan.planes input hinput).height + 1 - plan.filter.side = plan.shape.outHeight :=
    hplan.outHeight_eq
  have hcolumns : (plan.planes input hinput).width + 1 - plan.filter.side = plan.shape.outWidth :=
    hplan.outWidth_eq
  simp only [Regime.convolution]
  rw [hrows, hcolumns]
  exact congrArg Array.ofFn (funext fun p => h _ (position_inside p.2))

end DirectConv
