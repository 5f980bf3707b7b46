/-!
# Blanks

A blank is a character with the property White_Space. Trimming removes the blanks at both ends of
a text and keeps those inside.

## Main definitions

- `DirectConv.Text.isBlank`: the property White_Space
- `DirectConv.Text.trim`: a text without the blanks at its ends

## Main statements

- `DirectConv.Text.eq_append_trim`: only blanks are removed
- `DirectConv.Text.isBlank_head_trim`, `DirectConv.Text.isBlank_getLast_trim`: all of them are
-/

namespace DirectConv.Text

/-- Whether the character has the property White_Space. -/
def isBlank (c : Char) : Bool :=
  let n := c.toNat
  (0x9 ≤ n && n ≤ 0xd) || n == 0x20 || n == 0x85 || n == 0xa0 || n == 0x1680 ||
    (0x2000 ≤ n && n ≤ 0x200a) || n == 0x2028 || n == 0x2029 || n == 0x202f || n == 0x205f ||
    n == 0x3000

/-- The text without the blanks at its end. -/
def trimEnd (text : List Char) : List Char :=
  (text.reverse.dropWhile isBlank).reverse

/-- The text without the blanks at its two ends. -/
def trim (text : List Char) : List Char :=
  trimEnd (text.dropWhile isBlank)

/-- The blanks among the first characters have the property. -/
theorem isBlank_of_isWhitespace {c : Char} (h : c.isWhitespace = true) : isBlank c = true := by
  simp only [Char.isWhitespace, Bool.or_eq_true, decide_eq_true_eq] at h
  rcases h with ((h | h) | h) | h <;> subst h <;> decide

theorem eq_trimEnd_append (text : List Char) :
    ∃ after : List Char, text = trimEnd text ++ after ∧ ∀ c ∈ after, isBlank c = true := by
  refine ⟨(text.reverse.takeWhile isBlank).reverse, ?_, ?_⟩
  · rw [trimEnd, ← List.reverse_append, List.takeWhile_append_dropWhile, List.reverse_reverse]
  · intro c hc
    exact List.all_eq_true.1 (List.all_takeWhile) c (List.mem_reverse.1 hc)

/-- Trimming removes blanks only. -/
theorem eq_append_trim (text : List Char) :
    ∃ before after : List Char, text = before ++ trim text ++ after ∧
      (∀ c ∈ before, isBlank c = true) ∧ ∀ c ∈ after, isBlank c = true := by
  obtain ⟨after, h, hafter⟩ := eq_trimEnd_append (text.dropWhile isBlank)
  refine ⟨text.takeWhile isBlank, after, ?_, fun c hc => ?_, hafter⟩
  · rw [trim, List.append_assoc, ← h, List.takeWhile_append_dropWhile]
  · exact List.all_eq_true.1 (List.all_takeWhile) c hc

theorem isBlank_getLast_trimEnd (text : List Char) (c : Char)
    (h : (trimEnd text).getLast? = some c) : isBlank c = false := by
  rw [trimEnd, List.getLast?_reverse] at h
  have := List.head?_dropWhile_not isBlank text.reverse
  rw [h] at this
  simpa using this

/-- A trimmed text does not end with a blank. -/
theorem isBlank_getLast_trim (text : List Char) (c : Char)
    (h : (trim text).getLast? = some c) : isBlank c = false :=
  isBlank_getLast_trimEnd _ c h

/-- A trimmed text does not begin with a blank. -/
theorem isBlank_head_trim (text : List Char) (c : Char)
    (h : (trim text).head? = some c) : isBlank c = false := by
  obtain ⟨after, hsplit, -⟩ := eq_trimEnd_append (text.dropWhile isBlank)
  have hhead : (text.dropWhile isBlank).head? = some c := by
    rw [hsplit, List.head?_append]
    rw [trim] at h
    rw [h]
    rfl
  have := List.head?_dropWhile_not isBlank text
  rw [hhead] at this
  simpa using this

end DirectConv.Text
