/-!
# Blank characters

The characters of the Unicode property `White_Space`, and texts with the blank
characters at their ends removed.
-/

namespace NetworkConsole.Text

/-- Code points of the `White_Space` property, as inclusive ranges. -/
def blankRanges : List (Nat × Nat) :=
  [(0x0009, 0x000d), (0x0020, 0x0020), (0x0085, 0x0085), (0x00a0, 0x00a0), (0x1680, 0x1680),
   (0x2000, 0x200a), (0x2028, 0x2029), (0x202f, 0x202f), (0x205f, 0x205f), (0x3000, 0x3000)]

/-- Whether a character has the `White_Space` property. -/
def isBlank (character : Char) : Bool :=
  blankRanges.any fun range => range.1 ≤ character.toNat ∧ character.toNat ≤ range.2

/-- The text without the blank characters at its two ends. -/
def trim (text : List Char) : List Char :=
  ((text.dropWhile isBlank).reverse.dropWhile isBlank).reverse

/-- Whether a text has no character that is not blank. -/
def allBlank (text : List Char) : Bool := text.all isBlank

/-- A string without the blank characters at its two ends. -/
def trimString (text : String) : String := String.ofList (trim text.toList)

end NetworkConsole.Text
