import NetworkConsole.Proofs.Number.Numeral
import NetworkConsole.Text.Blank

/-!
# Blanks around a text

Trimming a text gives what stands between its blanks. Digits are no blanks, so a number is
left whole.
-/

namespace NetworkConsole.Text

/-- Trimming takes off the blanks around characters of which none is a blank. -/
theorem trim_of_blanks
    {before inside after : List Char}
    (blankBefore : ∀ character ∈ before, isBlank character = true)
    (nonempty : inside ≠ [])
    (visible : ∀ character ∈ inside, isBlank character = false)
    (blankAfter : ∀ character ∈ after, isBlank character = true) :
    trim (before ++ inside ++ after) = inside := by
  have startsVisible : ∀ character ∈ (inside ++ after).head?, isBlank character = false := by
    obtain ⟨first, rest, rfl⟩ := List.exists_cons_of_ne_nil nonempty
    rintro character ⟨⟩
    exact visible first List.mem_cons_self
  have endsVisible : ∀ character ∈ inside.reverse.head?, isBlank character = false :=
    fun character head => visible character (List.mem_reverse.mp (List.mem_of_mem_head? head))
  have blankEnd : ∀ character ∈ after.reverse, isBlank character = true :=
    fun character member => blankAfter character (List.mem_reverse.mp member)
  rw [trim, List.append_assoc, (Number.span_append blankBefore startsVisible).2,
    List.reverse_append, (Number.span_append blankEnd endsVisible).2, List.reverse_reverse]

/-- No digit is a blank. -/
theorem isBlank_eq_false_of_isDigit
    {digit : Char}
    (isDigit : digit.isDigit = true) :
    isBlank digit = false := by
  rw [Char.isDigit, Bool.and_eq_true, decide_eq_true_eq, decide_eq_true_eq] at isDigit
  have lower : 48 ≤ digit.toNat := UInt32.le_iff_toNat_le.mp isDigit.1
  have upper : digit.toNat ≤ 57 := UInt32.le_iff_toNat_le.mp isDigit.2
  simp only [isBlank, blankRanges, List.any_cons, List.any_nil, Bool.or_false,
    Bool.or_eq_false_iff, decide_eq_false_iff_not]
  omega

end NetworkConsole.Text
