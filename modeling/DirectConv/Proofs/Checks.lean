import DirectConv.Plan
import DirectConv.Precision
import Mathlib.Logic.Basic

/-!
# Checks

A validation looks at one condition after the other, and the first one that does not hold decides
what is reported. Here the conditions of every validation are written down as a list, without the
control flow around them, and the validation is shown to be the verdict on its list. So what a
validation accepts, and what it reports, are both read off the list.

## Main definitions

- `DirectConv.Check`, `DirectConv.verdict`: conditions in order, and the first one that fails
- `DirectConv.Shape.checks`, `DirectConv.VectorUnit.checks`, `DirectConv.Precision.checks`: the
  conditions of the validations

## Main statements

- `DirectConv.verdict_eq_ok_iff`, `DirectConv.verdict_eq_error_iff`: what a verdict says
- `DirectConv.Shape.validate_eq_verdict`, `DirectConv.VectorUnit.validate_eq_verdict`,
  `DirectConv.Precision.validate_eq_verdict`: the validations are verdicts
- `DirectConv.VectorUnit.validate_eq_ok_iff`, `DirectConv.Operand.validate_eq_ok_iff`,
  `DirectConv.Packed.validate_eq_ok_iff`: what they accept
-/

namespace DirectConv

/-- A condition, and what is reported where it does not hold. -/
structure Check where
  holds : Bool
  rejection : Rejection

/-- The first condition that does not hold is reported. -/
def verdict (checks : List Check) : Except Rejection Unit :=
  match checks.find? (!·.holds) with
  | some check => .error check.rejection
  | none => .ok ()

theorem verdict_eq_ok_iff {checks : List Check} :
    verdict checks = .ok () ↔ ∀ check ∈ checks, check.holds = true := by
  rw [verdict]
  split
  · rename_i check hfound
    obtain ⟨hfails, passed, rest, rfl, -⟩ := List.find?_eq_some_iff_append.1 hfound
    constructor
    · nofun
    · intro hall
      simp [hall check (by simp)] at hfails
  · rename_i hfound
    simpa using hfound

theorem verdict_eq_error_iff {checks : List Check} {rejection : Rejection} :
    verdict checks = .error rejection ↔ ∃ passed check rest, checks = passed ++ check :: rest ∧
      (∀ before ∈ passed, before.holds = true) ∧ check.holds = false ∧
        check.rejection = rejection := by
  have hfind : verdict checks = .error rejection ↔
      ∃ check, checks.find? (!·.holds) = some check ∧ check.rejection = rejection := by
    rw [verdict]
    cases checks.find? (!·.holds) <;> simp
  rw [hfind]
  constructor
  · rintro ⟨check, hfound, hrejection⟩
    obtain ⟨hfails, passed, rest, hchecks, hpassed⟩ := List.find?_eq_some_iff_append.1 hfound
    exact ⟨passed, check, rest, hchecks, by simpa using hpassed, by simpa using hfails, hrejection⟩
  · rintro ⟨passed, check, rest, hchecks, hpassed, hfails, hrejection⟩
    refine ⟨check, List.find?_eq_some_iff_append.2 ⟨by simp [hfails], passed, rest, hchecks, ?_⟩,
      hrejection⟩
    simpa using hpassed

@[simp] theorem verdict_nil : verdict [] = .ok () := rfl

theorem verdict_cons (condition : Prop) [Decidable condition] (rejection : Rejection)
    (rest : List Check) : verdict (⟨condition, rejection⟩ :: rest) =
      if condition then verdict rest else .error rejection := by
  by_cases h : condition <;> simp [verdict, h]

theorem verdict_append (checks rest : List Check) :
    verdict (checks ++ rest) = verdict checks >>= fun _ => verdict rest := by
  induction checks with
  | nil => rfl
  | cons check checks ih =>
    rw [show check = ⟨check.holds = true, check.rejection⟩ by simp, List.cons_append, verdict_cons,
      verdict_cons, ih]
    split <;> rfl

/-- Whatever follows a verdict can rely on its conditions. -/
theorem verdict_bind_congr {α : Type} {checks : List Check} {f g : Unit → Except Rejection α}
    (h : (∀ check ∈ checks, check.holds = true) → f () = g ()) :
    (verdict checks >>= f) = verdict checks >>= g := by
  cases hverdict : verdict checks with
  | error rejection => rfl
  | ok _ => exact h (verdict_eq_ok_iff.1 hverdict)

namespace Shape

/-- What a shape has to satisfy besides that its filter is supported. -/
def checks (shape : Shape) (filter : FilterSize) : List Check := [
  ⟨shape.side ≤ shape.height ∧ shape.side ≤ shape.width,
    .inputTooSmall shape.height shape.width filter⟩,
  ⟨0 < shape.channels, .noChannel⟩]

theorem validate_eq_verdict (shape : Shape) :
    shape.validate = match FilterSize.ofSide? shape.side with
      | none => .error (.unsupportedFilter shape.side)
      | some filter => verdict (shape.checks filter) >>= fun _ => .ok filter := by
  rw [validate, FilterSize.supported]
  cases FilterSize.ofSide? shape.side with
  | none => rfl
  | some filter =>
    change (if shape.height < shape.side ∨ shape.width < shape.side then
        .error (.inputTooSmall shape.height shape.width filter)
      else if shape.channels = 0 then .error .noChannel else .ok filter) =
        verdict (shape.checks filter) >>= fun _ => .ok filter
    rw [Shape.checks, verdict_cons, verdict_cons, verdict_nil]
    by_cases hlarge : shape.side ≤ shape.height ∧ shape.side ≤ shape.width
    · by_cases hchannels : 0 < shape.channels
      · rw [if_neg (by omega), if_neg (by omega), if_pos hlarge, if_pos hchannels]
        rfl
      · rw [if_neg (by omega), if_pos (by omega), if_pos hlarge, if_neg hchannels]
        rfl
    · rw [if_pos (by omega), if_neg hlarge]
      rfl

end Shape

namespace VectorUnit

/-- What a vector unit has to satisfy. -/
def checks (unit : VectorUnit) : List Check := [
  ⟨64 ≤ unit.registerBits ∧ unit.registerBits.isPowerOfTwo, .oddRegister unit.registerBits⟩,
  ⟨unit.registerBits ≤ longestBits, .longRegister unit.registerBits longestBits⟩,
  ⟨unit.laneCap ≠ some 0, .zeroLaneCap⟩]

theorem validate_eq_verdict (unit : VectorUnit) : unit.validate = verdict unit.checks := by
  have hodd : (unit.registerBits < 64 ∨ ¬ unit.registerBits.isPowerOfTwo) ↔
      ¬ (64 ≤ unit.registerBits ∧ unit.registerBits.isPowerOfTwo) := by
    rw [not_and_or, Nat.not_le]
  rw [validate, checks, verdict_cons, verdict_cons, verdict_cons, verdict_nil,
    if_congr hodd rfl rfl, if_congr Nat.not_le.symm rfl rfl, ite_not, ite_not, ite_not]

theorem validate_eq_ok_iff {unit : VectorUnit} :
    unit.validate = .ok () ↔ (64 ≤ unit.registerBits ∧ unit.registerBits.isPowerOfTwo) ∧
      unit.registerBits ≤ longestBits ∧ unit.laneCap ≠ some 0 := by
  rw [validate_eq_verdict, verdict_eq_ok_iff, checks]
  simp only [List.forall_mem_cons, decide_eq_true_eq, List.not_mem_nil, false_implies,
    implies_true, and_true]

end VectorUnit

namespace Operand

/-- What the numbers of bits of both operands have to satisfy. -/
def checks (activationBits weightBits : Nat) : List Check := [
  ⟨fits activationBits, .operandBits .activation activationBits⟩,
  ⟨fits weightBits, .operandBits .weight weightBits⟩]

theorem validate_eq_verdict (activationBits weightBits : Nat) :
    validate activationBits weightBits = verdict (checks activationBits weightBits) := by
  cases hactivation : fits activationBits <;> cases hweight : fits weightBits <;>
    simp [validate, checks, verdict, hactivation, hweight]

theorem validate_eq_ok_iff {activationBits weightBits : Nat} :
    validate activationBits weightBits = .ok () ↔
      fits activationBits = true ∧ fits weightBits = true := by
  rw [validate_eq_verdict, verdict_eq_ok_iff, checks]
  simp

end Operand

namespace Packed

variable (P : Packed) (filter : FilterSize)

/-- What a chosen interval between two moves has to satisfy. -/
def intervalChecks (n : Nat) : List Check := [
  ⟨0 < n, .zeroFlushInterval⟩,
  ⟨n ≤ P.longestRun filter, .flushTooLate n (P.longestRun filter)⟩]

/-- What the regime has to satisfy. -/
def checks : List Check :=
  Operand.checks P.activationBits P.weightBits ++
    ⟨0 < P.longestRun filter, .fieldTooNarrow P.activationBits P.weightBits P.fieldBits filter⟩ ::
      (P.flushEvery.map (P.intervalChecks filter)).getD []

theorem validate_eq_verdict : P.validate filter = verdict (P.checks filter) := by
  rw [validate, checks, verdict_append, verdict_cons, Operand.validate_eq_verdict]
  refine congrArg _ (funext fun _ => ?_)
  by_cases hlongest : P.longestRun filter = 0
  · rw [if_pos hlongest, if_neg (Nat.not_lt.2 (Nat.le_of_eq hlongest))]
    rfl
  · rw [if_neg hlongest, if_pos (Nat.pos_of_ne_zero hlongest)]
    cases P.flushEvery with
    | none => rfl
    | some n =>
      rw [Option.map_some, Option.getD_some, intervalChecks, verdict_cons, verdict_cons,
        verdict_nil]
      cases n with
      | zero => rfl
      | succ n => exact (if_congr Nat.not_le.symm rfl rfl).trans (ite_not ..)

variable {P filter}

theorem validate_eq_ok_iff : P.validate filter = .ok () ↔
    (Operand.fits P.activationBits = true ∧ Operand.fits P.weightBits = true) ∧
      0 < P.longestRun filter ∧ ∀ n ∈ P.flushEvery, 0 < n ∧ n ≤ P.longestRun filter := by
  rw [validate_eq_verdict, verdict_eq_ok_iff, checks, List.forall_mem_append,
    List.forall_mem_cons, decide_eq_true_eq, ← verdict_eq_ok_iff, ← Operand.validate_eq_verdict,
    Operand.validate_eq_ok_iff]
  cases P.flushEvery <;> simp [intervalChecks]

end Packed

namespace Precision

/-- What a precision has to satisfy. -/
def checks (filter : FilterSize) : Precision → List Check
  | sameWidth _ => []
  | widening _ => []
  | packed lane activationBits weightBits flushEvery =>
    Packed.checks ⟨lane.fieldBits, activationBits, weightBits, flushEvery⟩ filter
  | bitSerial _ activationBits weightBits => Operand.checks activationBits weightBits

theorem validate_eq_verdict (precision : Precision) (filter : FilterSize) :
    precision.regime.validate filter = verdict (precision.checks filter) := by
  cases precision with
  | sameWidth element => cases element <;> rfl
  | widening narrow => rfl
  | packed lane activationBits weightBits flushEvery => exact Packed.validate_eq_verdict _ filter
  | bitSerial word activationBits weightBits => exact Operand.validate_eq_verdict _ _

end Precision

end DirectConv
