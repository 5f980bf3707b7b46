import DirectConv.Proofs.Checks
import DirectConv.Proofs.Numeral
import DirectConv.VectorUnit.Environment

/-!
# The units an environment describes

An environment describes a unit if every variable that is set holds a numeral between blanks, and
the unit is used if its registers have a usable length and its lane cap is not zero. Otherwise the
first thing that is wrong is reported: the text of the register length, then that of the lane cap,
then the unit they describe together. A process that reports something goes on with the standard
unit, so the unit of a process is always a usable one.

## Main definitions

- `DirectConv.Environment.Describes`: the unit that the variables stand for
- `DirectConv.VectorUnit.Usable`: the units that are accepted
- `DirectConv.Environment.Refuses`: what is reported

## Main statements

- `DirectConv.Environment.readVariable_eq_ok_iff`: what a variable holds
- `DirectConv.VectorUnit.ofEnvironment_decides`: which environments are accepted, and what happens
  to the others
-/

namespace DirectConv

namespace Environment

/-- A variable that is set holds the numeral of a size, and `size` is this size. -/
def Holds (value : Option String) (size : Option Nat) : Prop :=
  match value with
  | none => size = none
  | some text => ∃ n, size = some n ∧ Text.Names text n

/-- The variables stand for the unit. A register length that is not set is the standard one. -/
structure Describes (env : Environment) (unit : VectorUnit) : Prop where
  registerBits : ∃ bits, Holds env.registerBits bits ∧ unit.registerBits = bits.getD 4096
  laneCap : Holds env.laneCap unit.laneCap

/-- The first thing that is wrong with the environment is what `rejection` says. -/
inductive Refuses (env : Environment) : Rejection → Prop where
  /-- The text of the register length is looked at before everything else. -/
  | registerBits {text : String} {error : Text.NumeralError} (set : env.registerBits = some text)
      (unread : Text.readSize (Text.trim text.toList) = .error error) :
      Refuses env (.unreadable "VCONV2D_VLEN" text error)
  /-- The text of the lane cap is looked at next. -/
  | laneCap {bits : Option Nat} {text : String} {error : Text.NumeralError}
      (holds : Holds env.registerBits bits) (set : env.laneCap = some text)
      (unread : Text.readSize (Text.trim text.toList) = .error error) :
      Refuses env (.unreadable "VCONV2D_LANES" text error)
  /-- The unit is looked at if both texts are numerals. -/
  | unusable {unit : VectorUnit} {rejection : Rejection} (describes : env.Describes unit)
      (refused : unit.validate = .error rejection) : Refuses env rejection

theorem Describes.exists_bits {env : Environment} {unit : VectorUnit} (h : env.Describes unit) :
    ∃ bits, Holds env.registerBits bits ∧
      (⟨bits.getD VectorUnit.standardBits, unit.laneCap⟩ : VectorUnit) = unit := by
  obtain ⟨bits, hbits, hregister⟩ := h.registerBits
  refine ⟨bits, hbits, ?_⟩
  rw [VectorUnit.standardBits, ← hregister]

theorem readVariable_eq_ok_iff {variableName : String} {value : Option String}
    {size : Option Nat} : readVariable variableName value = .ok size ↔ Holds value size := by
  cases value with
  | none => simp [readVariable, Holds, eq_comm]
  | some text =>
    simp only [Holds, ← Text.readSize_trim_eq_ok_iff]
    rw [readVariable]
    cases hread : Text.readSize (Text.trim text.toList) with
    | ok n => simp [eq_comm]
    | error error => simp

/-- A text that is no numeral is reported as it is, with what is wrong with it. -/
theorem readVariable_eq_error_iff {variableName : String} {value : Option String}
    {rejection : Rejection} : readVariable variableName value = .error rejection ↔
      ∃ text error, value = some text ∧ Text.readSize (Text.trim text.toList) = .error error ∧
        rejection = .unreadable variableName text error := by
  cases value with
  | none => simp [readVariable]
  | some text =>
    rw [readVariable]
    cases hread : Text.readSize (Text.trim text.toList) with
    | ok n => simp [hread]
    | error error => simp [hread, eq_comm]

end Environment

namespace VectorUnit

/-- The unit has registers of a usable length, and lanes. -/
structure Usable (unit : VectorUnit) : Prop where
  registerBits_power : unit.registerBits.isPowerOfTwo
  registerBits_mem : unit.registerBits ∈ Set.Icc 64 65536
  laneCap_ne_zero : unit.laneCap ≠ some 0

variable {env : Environment} {unit : VectorUnit} {rejection : Rejection}

theorem validate_eq_ok_iff_usable : unit.validate = .ok () ↔ unit.Usable := by
  rw [validate_eq_ok_iff]
  constructor
  · rintro ⟨⟨hlong, hpower⟩, hshort, hcap⟩
    exact ⟨hpower, ⟨hlong, hshort⟩, hcap⟩
  · rintro ⟨hpower, ⟨hlong, hshort⟩, hcap⟩
    exact ⟨⟨hlong, hpower⟩, hshort, hcap⟩

theorem ofEnvironment_eq_ok_iff :
    ofEnvironment env = .ok unit ↔ env.Describes unit ∧ unit.Usable := by
  simp only [ofEnvironment, bind_eq_ok_iff, Environment.readVariable_eq_ok_iff]
  constructor
  · rintro ⟨bits, hbits, cap, hcap, ⟨⟩, hunit, hok⟩
    obtain rfl := Except.ok.inj hok
    exact ⟨⟨⟨bits, hbits, rfl⟩, hcap⟩, validate_eq_ok_iff_usable.1 hunit⟩
  · rintro ⟨hdescribes, husable⟩
    obtain ⟨bits, hbits, hunit⟩ := hdescribes.exists_bits
    refine ⟨bits, hbits, unit.laneCap, hdescribes.laneCap, (), ?_, ?_⟩
    · rw [hunit]
      exact validate_eq_ok_iff_usable.2 husable
    · rw [hunit]
      rfl

theorem ofEnvironment_eq_error_iff :
    ofEnvironment env = .error rejection ↔ env.Refuses rejection := by
  simp only [ofEnvironment, bind_eq_error_iff, Environment.readVariable_eq_ok_iff,
    Environment.readVariable_eq_error_iff]
  constructor
  -- the two texts are looked at before the unit, and each of them only if what precedes it passed
  · rintro (⟨text, error, hset, hunread, rfl⟩ | ⟨bits, hbits, h⟩)
    · exact .registerBits hset hunread
    · rcases h with ⟨text, error, hset, hunread, rfl⟩ | ⟨cap, hcap, h⟩
      · exact .laneCap hbits hset hunread
      · rcases h with hrefused | ⟨_, _, h⟩
        · exact .unusable ⟨⟨bits, hbits, rfl⟩, hcap⟩ hrefused
        · cases h
  · intro h
    cases h with
    | registerBits hset hunread => exact .inl ⟨_, _, hset, hunread, rfl⟩
    | laneCap hbits hset hunread => exact .inr ⟨_, hbits, .inl ⟨_, _, hset, hunread, rfl⟩⟩
    | @unusable unit _ hdescribes hrefused =>
      obtain ⟨bits, hbits, hunit⟩ := hdescribes.exists_bits
      refine .inr ⟨bits, hbits, .inr ⟨unit.laneCap, hdescribes.laneCap, .inl ?_⟩⟩
      rwa [hunit]

/-- Whatever is wrong with a unit, its configuration is at fault. -/
theorem kind_of_validate (h : unit.validate = .error rejection) :
    rejection.kind = .configuration := by
  rw [validate_eq_verdict, verdict_eq_error_iff] at h
  obtain ⟨passed, check, rest, hchecks, -, -, rfl⟩ := h
  have hmem : check ∈ unit.checks := by simp [hchecks]
  simp only [checks, List.mem_cons, List.not_mem_nil, or_false] at hmem
  rcases hmem with rfl | rfl | rfl <;> rfl

/-- An environment is accepted if and only if it describes a usable unit, and this is the unit that
is used. Otherwise the first thing that is wrong is reported as a fault of the configuration, and
the standard unit is used. In any case the unit of a process passes validation. -/
theorem ofEnvironment_decides (env : Environment) :
    (∀ unit, ofEnvironment env = .ok unit ↔ env.Describes unit ∧ unit.Usable) ∧
    (∀ rejection, ofEnvironment env = .error rejection ↔ env.Refuses rejection) ∧
    (∀ rejection, env.Refuses rejection → rejection.kind = .configuration) ∧
    (∀ unit, env.Describes unit → unit.Usable → ambient env = unit) ∧
    (∀ rejection, env.Refuses rejection → ambient env = ⟨4096, none⟩) ∧
    (ambient env).validate = .ok () := by
  refine ⟨fun _ => ofEnvironment_eq_ok_iff, fun _ => ofEnvironment_eq_error_iff, ?_, ?_, ?_, ?_⟩
  · intro rejection hrefuses
    cases hrefuses with
    | registerBits | laneCap => rfl
    | unusable _ hrefused => exact kind_of_validate hrefused
  · intro unit hdescribes husable
    rw [ambient, ofEnvironment_eq_ok_iff.2 ⟨hdescribes, husable⟩]
  · intro rejection hrefuses
    rw [ambient, ofEnvironment_eq_error_iff.2 hrefuses]
    rfl
  · rw [ambient]
    split
    · rename_i unit hunit
      exact validate_eq_ok_iff_usable.2 (ofEnvironment_eq_ok_iff.1 hunit).2
    · exact standard_validate

/-- Blanks, a plus sign and leading zeros can stand around the digits of a register length, but a
lane cap with a blank between its digits makes the process ignore both variables. -/
theorem ofEnvironment_decides_padded :
    ofEnvironment ⟨some " +01024\n", some "12"⟩ = .ok ⟨1024, some 12⟩ ∧
    ofEnvironment ⟨some "1024", some "1 2"⟩ =
      .error (.unreadable "VCONV2D_LANES" "1 2" .invalidDigit) ∧
    ambient ⟨some "1024", some "1 2"⟩ = ⟨4096, none⟩ := by
  have hlength : Text.Names " +01024\n" 1024 :=
    ⟨[' '], ['+', '0', '1', '0', '2', '4'], ['\n'], by simp,
      by simp [Text.isBlank], by simp [Text.isBlank], ['+'], ['0', '1', '0', '2', '4'], rfl,
      .inr rfl, by simp, by simp [Text.IsDigit], by decide, by decide⟩
  have hcap : Text.Names "12" 12 :=
    ⟨[], ['1', '2'], [], by simp, by simp, by simp, [], ['1', '2'], rfl, .inl rfl, by simp,
      by simp [Text.IsDigit], by decide, by decide⟩
  have hshort : Text.Names "1024" 1024 :=
    ⟨[], ['1', '0', '2', '4'], [], by simp, by simp, by simp, [], ['1', '0', '2', '4'], rfl, .inl rfl,
      by simp, by simp [Text.IsDigit], by decide, by decide⟩
  have hunread : Text.readSize (Text.trim "1 2".toList) = .error .invalidDigit := by
    rw [show "1 2".toList = ['1', ' ', '2'] by simp]
    rfl
  have hrefuses : Environment.Refuses ⟨some "1024", some "1 2"⟩
      (.unreadable "VCONV2D_LANES" "1 2" .invalidDigit) :=
    .laneCap (show Environment.Holds _ (some 1024) from ⟨1024, rfl, hshort⟩) rfl hunread
  have haccepts := (ofEnvironment_decides ⟨some " +01024\n", some "12"⟩).1 ⟨1024, some 12⟩
  have hrefused := (ofEnvironment_decides ⟨some "1024", some "1 2"⟩).2
  refine ⟨haccepts.2 ⟨⟨⟨some 1024, ⟨1024, rfl, hlength⟩, rfl⟩, ⟨12, rfl, hcap⟩⟩, ?_⟩,
    (hrefused.1 _).2 hrefuses, hrefused.2.2.2.1 _ hrefuses⟩
  exact ⟨⟨10, rfl⟩, by decide, by decide⟩

end VectorUnit

end DirectConv
