/-!
# Search for a text

Whether one text occurs within another.
-/

namespace NetworkConsole.Text

/-- Whether `needle` occurs in a text. -/
def contains (needle : List Char) : List Char → Bool
  | [] => needle.isEmpty
  | character :: rest => needle.isPrefixOf (character :: rest) || contains needle rest

/-- A text occurs in another exactly when that one is it with something around it. -/
theorem contains_iff (needle text : List Char) :
    contains needle text = true ↔ ∃ before after, text = before ++ needle ++ after := by
  induction text with
  | nil =>
      constructor
      · intro isEmpty
        cases needle with
        | nil => exact ⟨[], [], rfl⟩
        | cons head tail => simp [contains] at isEmpty
      · rintro ⟨before, after, split⟩
        cases needle with
        | nil => rfl
        | cons head tail => simp at split
  | cons character rest induction =>
      simp only [contains, Bool.or_eq_true, induction, List.isPrefixOf_iff_prefix]
      constructor
      · rintro (⟨after, split⟩ | ⟨before, after, split⟩)
        · exact ⟨[], after, by simp [split]⟩
        · exact ⟨character :: before, after, by simp [split]⟩
      · rintro ⟨before, after, split⟩
        cases before with
        | nil => exact .inl ⟨after, by simpa using split.symm⟩
        | cons head tail =>
            injection split with _ rest_eq
            exact .inr ⟨tail, after, rest_eq⟩

end NetworkConsole.Text
