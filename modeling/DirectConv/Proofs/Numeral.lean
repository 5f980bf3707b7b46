import DirectConv.Text.Blank
import DirectConv.Text.Numeral
import Mathlib.Data.List.Basic
import Mathlib.Data.Nat.Digits.Defs
import Mathlib.Tactic.Ring

/-!
# The texts that are read

A text is read as a size if and only if it is a numeral between blanks. The grammar is given here
apart from the reader: at most one plus sign, at least one digit, and nothing else. The reader stops
as soon as the digits so far are too large, which is the case exactly if all digits together are.

## Main definitions

- `DirectConv.Text.numberOf`: the number that digits stand for
- `DirectConv.Text.IsNumeral`: the numerals of a size
- `DirectConv.Text.Names`: the texts that hold a numeral between blanks

## Main statements

- `DirectConv.Text.readDigits_eq_ok_iff`, `DirectConv.Text.readSize_eq_ok_iff`: what is read
- `DirectConv.Text.trim_padded`: trimming removes all that stands around the numeral
- `DirectConv.Text.readSize_trim_eq_ok_iff`: which texts are read, blanks included
-/

namespace DirectConv.Text

/-- The ASCII digits. -/
def IsDigit (c : Char) : Prop := '0' ≤ c ∧ c ≤ '9'

instance (c : Char) : Decidable (IsDigit c) := inferInstanceAs (Decidable (_ ∧ _))

/-- The number that digits stand for, in positional notation with the base ten. -/
def numberOf (digits : List Char) : Nat :=
  Nat.ofDigits 10 (digits.reverse.map fun c => c.toNat - '0'.toNat)

/-- The text is a numeral of the size `n`: digits, with or without a plus sign in front. Leading
zeros are allowed. -/
def IsNumeral (text : List Char) (n : Nat) : Prop :=
  ∃ sign digits : List Char, text = sign ++ digits ∧ (sign = [] ∨ sign = ['+']) ∧ digits ≠ [] ∧
    (∀ c ∈ digits, IsDigit c) ∧ numberOf digits = n ∧ n < Size.bound

/-- The text holds a numeral of the size `n` between blanks. -/
def Names (text : String) (n : Nat) : Prop :=
  ∃ before numeral after : List Char, text.toList = before ++ numeral ++ after ∧
    (∀ c ∈ before, isBlank c = true) ∧ (∀ c ∈ after, isBlank c = true) ∧ IsNumeral numeral n

theorem digitValue?_eq_some_iff {c : Char} {digit : Nat} :
    digitValue? c = some digit ↔ IsDigit c ∧ c.toNat - '0'.toNat = digit := by
  rw [digitValue?]
  split
  · rename_i h
    simp [IsDigit, h]
  · rename_i h
    simp [IsDigit, h]

/-- The first digit counts as often as there are numbers of the length of the others. -/
theorem numberOf_cons (c : Char) (rest : List Char) :
    numberOf (c :: rest) = (c.toNat - '0'.toNat) * 10 ^ rest.length + numberOf rest := by
  simp only [numberOf, List.reverse_cons, List.map_append, List.map_cons, List.map_nil,
    Nat.ofDigits_append, Nat.ofDigits_singleton, List.length_map, List.length_reverse]
  ring

/-- Digits are read if and only if they stand for a size together with those that were read before
them. -/
theorem readDigits_eq_ok_iff {acc n : Nat} {digits : List Char} (hacc : acc < Size.bound) :
    readDigits acc digits = .ok n ↔ (∀ c ∈ digits, IsDigit c) ∧
      acc * 10 ^ digits.length + numberOf digits = n ∧ n < Size.bound := by
  induction digits generalizing acc with
  | nil =>
    rw [readDigits]
    constructor
    · rintro ⟨⟩
      exact ⟨nofun, by simp [numberOf], hacc⟩
    · rintro ⟨-, hn, -⟩
      rw [← hn]
      simp [numberOf]
  | cons c rest ih =>
    have hsplit : acc * 10 ^ (c :: rest).length + numberOf (c :: rest) =
        (acc * 10 + (c.toNat - '0'.toNat)) * 10 ^ rest.length + numberOf rest := by
      rw [numberOf_cons, List.length_cons]
      ring
    rw [readDigits, List.forall_mem_cons, hsplit]
    cases hdigit : digitValue? c with
    | none =>
      have hc : ¬ IsDigit c := by
        intro hc
        rw [digitValue?_eq_some_iff.2 ⟨hc, rfl⟩] at hdigit
        cases hdigit
      exact iff_of_false nofun fun h => hc h.1.1
    | some digit =>
      obtain ⟨hc, rfl⟩ := digitValue?_eq_some_iff.1 hdigit
      dsimp only
      split
      · rename_i hfits
        rw [ih hfits]
        simp only [hc, true_and]
      · -- the digits to come cannot make the number smaller
        rename_i hlarge
        refine iff_of_false nofun ?_
        rintro ⟨-, hn, hlt⟩
        have hpos : 0 < 10 ^ rest.length := Nat.pow_pos (by decide)
        have hle : acc * 10 + (c.toNat - '0'.toNat) ≤
            (acc * 10 + (c.toNat - '0'.toNat)) * 10 ^ rest.length :=
          Nat.le_mul_of_pos_right _ hpos
        omega

theorem readDigits_zero_eq_ok_iff {digits : List Char} {n : Nat} :
    readDigits 0 digits = .ok n ↔
      (∀ c ∈ digits, IsDigit c) ∧ numberOf digits = n ∧ n < Size.bound := by
  rw [readDigits_eq_ok_iff (by decide), Nat.zero_mul, Nat.zero_add]

theorem not_isDigit_plus : ¬ IsDigit '+' := by decide

/-- Behind a plus sign only digits can stand. -/
theorem isNumeral_plus_cons {digits : List Char} {n : Nat} :
    IsNumeral ('+' :: digits) n ↔
      digits ≠ [] ∧ (∀ c ∈ digits, IsDigit c) ∧ numberOf digits = n ∧ n < Size.bound := by
  constructor
  · rintro ⟨sign, digits', htext, rfl | rfl, hnonempty, hdigits, hn⟩
    · -- the sign would have to be a digit
      rw [List.nil_append] at htext
      subst htext
      exact absurd (hdigits '+' List.mem_cons_self) not_isDigit_plus
    · obtain rfl : digits = digits' := by simpa using htext
      exact ⟨hnonempty, hdigits, hn⟩
  · rintro ⟨hnonempty, hdigits, hn⟩
    exact ⟨['+'], digits, rfl, .inr rfl, hnonempty, hdigits, hn⟩

theorem isNumeral_of_no_plus {text : List Char} {n : Nat} (h : ∀ rest, text ≠ '+' :: rest) :
    IsNumeral text n ↔
      text ≠ [] ∧ (∀ c ∈ text, IsDigit c) ∧ numberOf text = n ∧ n < Size.bound := by
  constructor
  · rintro ⟨sign, digits, rfl, rfl | rfl, hnonempty, hdigits, hn⟩
    · exact ⟨hnonempty, hdigits, hn⟩
    · exact absurd rfl (h digits)
  · rintro ⟨hnonempty, hdigits, hn⟩
    exact ⟨[], text, rfl, .inl rfl, hnonempty, hdigits, hn⟩

/-- A text is read if and only if it is a numeral. -/
theorem readSize_eq_ok_iff {text : List Char} {n : Nat} :
    readSize text = .ok n ↔ IsNumeral text n := by
  fun_cases readSize text with
  | case1 =>
    refine iff_of_false nofun ?_
    rw [isNumeral_of_no_plus (by simp)]
    exact fun h => h.1 rfl
  | case2 =>
    refine iff_of_false nofun ?_
    rw [isNumeral_plus_cons]
    exact fun h => h.1 rfl
  | case3 digits hnonempty =>
    rw [readDigits_zero_eq_ok_iff, isNumeral_plus_cons]
    exact (and_iff_right hnonempty).symm
  | case4 _ hnonempty _ hplus =>
    rw [readDigits_zero_eq_ok_iff, isNumeral_of_no_plus hplus]
    exact (and_iff_right hnonempty).symm

theorem isBlank_of_isDigit {c : Char} (h : IsDigit c) : isBlank c = false := by
  have hlow : 48 ≤ c.toNat := h.1
  have hhigh : c.toNat ≤ 57 := h.2
  simp only [isBlank, Bool.or_eq_false_iff, Bool.and_eq_false_iff, decide_eq_false_iff_not,
    beq_eq_false_iff_ne]
  omega

/-- A numeral has two ends, and neither of them is a blank. -/
theorem isBlank_ends_of_isNumeral {text : List Char} {n : Nat} (h : IsNumeral text n) :
    (∃ c, text.head? = some c ∧ isBlank c = false) ∧
      ∃ c, text.getLast? = some c ∧ isBlank c = false := by
  obtain ⟨sign, digits, rfl, hsign, hnonempty, hdigits, -⟩ := h
  constructor
  · rcases hsign with rfl | rfl
    · exact ⟨digits.head hnonempty, List.head?_eq_some_head hnonempty,
        isBlank_of_isDigit (hdigits _ (List.head_mem hnonempty))⟩
    · exact ⟨'+', rfl, by decide⟩
  · refine ⟨digits.getLast hnonempty, ?_,
      isBlank_of_isDigit (hdigits _ (List.getLast_mem hnonempty))⟩
    rw [List.getLast?_append_of_ne_nil _ hnonempty, List.getLast?_eq_some_getLast hnonempty]

theorem dropWhile_isBlank_append {blanks text : List Char} (hblanks : ∀ c ∈ blanks, isBlank c = true)
    (hhead : ∃ c, text.head? = some c ∧ isBlank c = false) :
    (blanks ++ text).dropWhile isBlank = text := by
  obtain ⟨c, hc, hblank⟩ := hhead
  obtain ⟨rest, rfl⟩ := List.head?_eq_some_iff.1 hc
  rw [List.dropWhile_append_of_pos hblanks, List.dropWhile_cons_of_neg (by simp [hblank])]

/-- Trimming removes the blanks around a text whose ends are no blanks. -/
theorem trim_padded {before text after : List Char} (hbefore : ∀ c ∈ before, isBlank c = true)
    (hafter : ∀ c ∈ after, isBlank c = true)
    (hhead : ∃ c, text.head? = some c ∧ isBlank c = false)
    (hlast : ∃ c, text.getLast? = some c ∧ isBlank c = false) :
    trim (before ++ text ++ after) = text := by
  have hhead' : ∃ c, (text ++ after).head? = some c ∧ isBlank c = false := by
    obtain ⟨c, hc, hblank⟩ := hhead
    exact ⟨c, by rw [List.head?_append, hc, Option.some_or], hblank⟩
  rw [trim, List.append_assoc, dropWhile_isBlank_append hbefore hhead', trimEnd,
    List.reverse_append, dropWhile_isBlank_append, List.reverse_reverse]
  · exact fun c hc => hafter c (List.mem_reverse.1 hc)
  · rwa [List.head?_reverse]

/-- A text is read, without the blanks at its ends, if and only if it holds a numeral between
blanks. -/
theorem readSize_trim_eq_ok_iff {text : String} {n : Nat} :
    readSize (trim text.toList) = .ok n ↔ Names text n := by
  rw [readSize_eq_ok_iff]
  constructor
  · intro hnumeral
    obtain ⟨before, after, hsplit, hbefore, hafter⟩ := eq_append_trim text.toList
    exact ⟨before, trim text.toList, after, hsplit, hbefore, hafter, hnumeral⟩
  · rintro ⟨before, numeral, after, hsplit, hbefore, hafter, hnumeral⟩
    obtain ⟨hhead, hlast⟩ := isBlank_ends_of_isNumeral hnumeral
    rw [hsplit, trim_padded hbefore hafter hhead hlast]
    exact hnumeral

end DirectConv.Text
