import Mathlib.Data.List.Forall2
import Mathlib.Data.Rat.Defs
import NetworkConsole.Json.Token
import NetworkConsole.Number.Numeral

/-!
# Spellings of JSON texts

JSON leaves free how a character is escaped, what spacing stands between the parts of a
text and how a number is written. The relations here hold between what is written and
each of its spellings. They speak of characters only and know nothing of tokens.
-/

namespace NetworkConsole.Json

/-! ## Sequences -/

section Sequences

variable {α β : Type}

/-- Parts that are written one directly after another. -/
inductive Concatenated (part : α → List β → Prop) : List α → List β → Prop
  | nil : Concatenated part [] []
  | cons
      {value : α}
      {values : List α}
      {first rest : List β}
      (head : part value first)
      (tail : Concatenated part values rest) :
      Concatenated part (value :: values) (first ++ rest)

/-- Items with a divider between each and the next. -/
inductive Divided (divider : β) (item : α → List β → Prop) : List α → List β → Prop
  | one
      {value : α}
      {last : List β}
      (head : item value last) :
      Divided divider item [value] last
  | more
      {value : α}
      {values : List α}
      {first rest : List β}
      (head : item value first)
      (tail : Divided divider item values rest) :
      Divided divider item (value :: values) (first ++ divider :: rest)

/-- Divided items between brackets. Where there are none, a blank may stand between. -/
inductive Bracketed
    (opening closing divider : β)
    (blank : List β → Prop)
    (item : α → List β → Prop) : List α → List β → Prop
  | empty
      {inside : List β}
      (isBlank : blank inside) :
      Bracketed opening closing divider blank item [] (opening :: inside ++ [closing])
  | full
      {values : List α}
      {inside : List β}
      (divided : Divided divider item values inside) :
      Bracketed opening closing divider blank item values (opening :: inside ++ [closing])

end Sequences

/-! ## Spacing -/

section Spacing

variable {α : Type}

/-- A run of characters that may stand between tokens. -/
def IsSpacing (text : List Char) : Prop := ∀ character ∈ text, isSpace character = true

instance (text : List Char) : Decidable (IsSpacing text) :=
  decidable_of_iff (text.all isSpace = true) List.all_eq_true

/-- Something with spacing around it. -/
inductive Padded (part : α → List Char → Prop) (value : α) : List Char → Prop
  | intro
      {before inside after : List Char}
      (spacingBefore : IsSpacing before)
      (written : part value inside)
      (spacingAfter : IsSpacing after) :
      Padded part value (before ++ inside ++ after)

/-- The spellings of an array. -/
def ArrayText (item : α → List Char → Prop) : List α → List Char → Prop :=
  Bracketed '[' ']' ',' IsSpacing (Padded item)

/-- The spellings of an object. -/
def ObjectText (member : α → List Char → Prop) : List α → List Char → Prop :=
  Bracketed '\x7b' '\x7d' ',' IsSpacing (Padded member)

/-- A name and a value with a colon between them. -/
inductive NamedText (name value : List Char → Prop) : List Char → Prop
  | intro
      {first before after last : List Char}
      (writtenName : name first)
      (spacingBefore : IsSpacing before)
      (spacingAfter : IsSpacing after)
      (writtenValue : value last) :
      NamedText name value (first ++ before ++ ':' :: after ++ last)

end Spacing

/-! ## Strings -/

/-- The letters of the short escapes with the characters that they stand for. -/
def letterEscapes : List (Char × Char) :=
  [(quoteMark, quoteMark), (escapeMark, escapeMark), ('/', '/'), ('b', Char.ofNat 0x08),
   ('f', Char.ofNat 0x0c), ('n', '\n'), ('r', '\r'), ('t', '\t')]

/-- A hexadecimal digit in either letter case. -/
def WritesHex (value : Nat) (digit : Char) : Prop :=
  "0123456789abcdef".toList[value]? = some digit ∨
    "0123456789ABCDEF".toList[value]? = some digit

instance (value : Nat) (digit : Char) : Decidable (WritesHex value digit) :=
  inferInstanceAs (Decidable (_ ∨ _))

/-- The spellings of a piece of a string. -/
inductive PieceText : Piece → List Char → Prop
  | plain
      {character : Char}
      (printable : 0x20 ≤ character.toNat)
      (ordinary : character ≠ quoteMark ∧ character ≠ escapeMark) :
      PieceText (.character character) [character]
  | letter
      {letter character : Char}
      (listed : (letter, character) ∈ letterEscapes) :
      PieceText (.character character) [escapeMark, letter]
  | codeUnit
      {first second third fourth : Nat}
      {a b c d : Char}
      (writtenFirst : WritesHex first a)
      (writtenSecond : WritesHex second b)
      (writtenThird : WritesHex third c)
      (writtenFourth : WritesHex fourth d) :
      PieceText (.codeUnit (((first * 16 + second) * 16 + third) * 16 + fourth))
        [escapeMark, 'u', a, b, c, d]

/-- The pieces that stand for one character: itself, its UTF-16 code unit, or its
surrogate pair. -/
inductive CharacterPieces (character : Char) : List Piece → Prop
  | itself : CharacterPieces character [.character character]
  | codeUnit : CharacterPieces character [.codeUnit character.toNat]
  | surrogates
      {high low : Nat}
      (isHigh : 0xd800 ≤ high ∧ high ≤ 0xdbff)
      (isLow : 0xdc00 ≤ low ∧ low ≤ 0xdfff)
      (encoded : character.toNat = 0x10000 + (high - 0xd800) * 0x400 + (low - 0xdc00)) :
      CharacterPieces character [.codeUnit high, .codeUnit low]

/-- Pieces between quotes. -/
inductive QuotedText (pieces : List Piece) : List Char → Prop
  | intro
      {body : List Char}
      (written : Concatenated PieceText pieces body) :
      QuotedText pieces (quoteMark :: body ++ [quoteMark])

/-- The spellings of a string. -/
def StringText (content : String) (text : List Char) : Prop :=
  ∃ pieces, Concatenated CharacterPieces content.toList pieces ∧ QuotedText pieces text

/-! ## Numbers -/

/-- A run of digits. -/
def IsDigits (text : List Char) : Prop := text ≠ [] ∧ ∀ digit ∈ text, digit.isDigit = true

instance (text : List Char) : Decidable (IsDigits text) :=
  decidable_of_iff (text ≠ [] ∧ text.all Char.isDigit = true)
    (and_congr_right' List.all_eq_true)

/-- The digits before a point, without a leading zero. -/
def IsWhole (text : List Char) : Prop :=
  IsDigits text ∧ (text.head? = some '0' → text.length = 1)

instance (text : List Char) : Decidable (IsWhole text) :=
  inferInstanceAs (Decidable (IsDigits text ∧ _))

/-- The digits after the point, if there is one. -/
inductive FractionText : List Char → List Char → Prop
  | absent : FractionText [] []
  | present {digits : List Char} (isDigits : IsDigits digits) : FractionText digits ('.' :: digits)

/-- A power of ten, if there is one. -/
inductive ExponentText : Int → List Char → Prop
  | absent : ExponentText 0 []
  | unsigned
      {mark : Char}
      {digits : List Char}
      (isMark : mark = 'e' ∨ mark = 'E')
      (isDigits : IsDigits digits) :
      ExponentText (Number.digitsValue digits) (mark :: digits)
  | positive
      {mark : Char}
      {digits : List Char}
      (isMark : mark = 'e' ∨ mark = 'E')
      (isDigits : IsDigits digits) :
      ExponentText (Number.digitsValue digits) (mark :: '+' :: digits)
  | negative
      {mark : Char}
      {digits : List Char}
      (isMark : mark = 'e' ∨ mark = 'E')
      (isDigits : IsDigits digits) :
      ExponentText (-Number.digitsValue digits) (mark :: '-' :: digits)

/-- The sign of a number. -/
inductive SignText : Int → List Char → Prop
  | positive : SignText 1 []
  | negative : SignText (-1) ['-']

/-- The spellings of a number. -/
inductive NumberText : Rat → List Char → Prop
  | intro
      {sign exponent : Int}
      {whole fraction signed pointed scaled : List Char}
      (writtenSign : SignText sign signed)
      (isWhole : IsWhole whole)
      (writtenFraction : FractionText fraction pointed)
      (writtenExponent : ExponentText exponent scaled) :
      NumberText
        (sign * Number.digitsValue (whole ++ fraction) * 10 ^ (exponent - fraction.length))
        (signed ++ whole ++ pointed ++ scaled)

/-- A natural number without a sign, a point and an exponent. -/
def NaturalText (value : Nat) (text : List Char) : Prop :=
  IsWhole text ∧ Number.digitsValue text = value

instance (value : Nat) (text : List Char) : Decidable (NaturalText value text) :=
  inferInstanceAs (Decidable (IsWhole text ∧ _))

/-! ## Values -/

/-- The words that are values. -/
def words : List String := ["true", "false", "null"]

/-- The values without brackets. Their strings may have surrogates without a partner. -/
inductive LeafText : List Char → Prop
  | word {word : String} (listed : word ∈ words) : LeafText word.toList
  | number {value : Rat} {text : List Char} (written : NumberText value text) : LeafText text
  | text {pieces : List Piece} {text : List Char} (written : QuotedText pieces text) :
      LeafText text

/-- The well-formed values with brackets at most `depth` deep. -/
def ValueText : (depth : Nat) → List Char → Prop
  | 0, text => LeafText text
  | depth + 1, text =>
      LeafText text ∨
        (∃ items, ArrayText (fun _ : Unit => ValueText depth) items text) ∨
        ∃ members, ObjectText
          (fun _ : Unit =>
            NamedText (fun name => ∃ pieces, QuotedText pieces name) (ValueText depth))
          members text

/-- The well-formed values. -/
def IsValue (text : List Char) : Prop := ∃ depth, ValueText depth text

/-! ## Written texts -/

section Written

variable {α : Type}

theorem isSpacing_nil : IsSpacing [] := by
  rintro character ⟨⟩

theorem padded_of_part
    {part : α → List Char → Prop}
    {value : α}
    {text : List Char}
    (written : part value text) :
    Padded part value text := by
  have padded := Padded.intro isSpacing_nil written isSpacing_nil
  rwa [List.nil_append, List.append_nil] at padded

theorem namedText_append
    {name value : List Char → Prop}
    {first last : List Char}
    (writtenName : name first)
    (writtenValue : value last) :
    NamedText name value (first ++ ':' :: last) := by
  have named := NamedText.intro writtenName isSpacing_nil isSpacing_nil writtenValue
  rwa [List.append_nil, List.append_assoc] at named

theorem divided_intercalate
    {item : α → List Char → Prop}
    {values : List α}
    {texts : List String}
    (nonempty : values ≠ [])
    (written : List.Forall₂ (fun value text => item value text.toList) values texts) :
    Divided ',' (Padded item) values (",".intercalate texts).toList := by
  induction written with
  | nil => exact absurd rfl nonempty
  | @cons value text values texts head tail inductionHypothesis =>
      cases tail with
      | nil =>
          rw [String.intercalate_singleton]
          exact .one (padded_of_part head)
      | cons next others =>
          rw [String.intercalate_cons_cons, String.toList_append, String.toList_append,
            List.append_assoc]
          exact .more (padded_of_part head) (inductionHypothesis (List.cons_ne_nil _ _))

theorem bracketed_intercalate
    {item : α → List Char → Prop}
    {values : List α}
    {texts : List String}
    (opening closing : Char)
    (written : List.Forall₂ (fun value text => item value text.toList) values texts) :
    Bracketed opening closing ',' IsSpacing (Padded item) values
      (opening :: (",".intercalate texts).toList ++ [closing]) := by
  by_cases nothing : values = []
  · subst nothing
    cases written
    exact .empty isSpacing_nil
  · exact .full (divided_intercalate nothing written)

/-- The texts of items with commas between them are one of the spellings of their array. -/
theorem arrayText_intercalate
    {item : α → List Char → Prop}
    {values : List α}
    {texts : List String}
    (written : List.Forall₂ (fun value text => item value text.toList) values texts) :
    ArrayText item values ("[" ++ ",".intercalate texts ++ "]").toList := by
  rw [String.toList_append, String.toList_append]
  exact bracketed_intercalate '[' ']' written

/-- An object text is one of the spellings of its members. -/
theorem objectText_written
    {member : α → List Char → Prop}
    {values : List α}
    {members : List (String × String)}
    (written : List.Forall₂
      (fun value named => member value (quote named.1 ++ ":" ++ named.2).toList) values members) :
    ObjectText member values (objectText members).toList := by
  rw [objectText, String.toList_append, String.toList_append]
  exact bracketed_intercalate '\x7b' '\x7d' (List.forall₂_map_right_iff.mpr written)

theorem writesHex_hexDigit
    {value : Nat}
    (bound : value < 16) :
    WritesHex value (hexDigit value) := by
  have listed : ∀ value < 16,
      "0123456789abcdef".toList[value]? = some (hexDigit value) := by decide
  exact .inl (listed value bound)

theorem exists_pieceText_escapeCharacter (character : Char) :
    ∃ piece, CharacterPieces character [piece] ∧ PieceText piece (escapeCharacter character) := by
  have letter : ∀ code letter, character.toNat = code →
      (letter, Char.ofNat code) ∈ letterEscapes →
        PieceText (.character character) [escapeMark, letter] := by
    rintro code letter rfl listed
    rw [Char.ofNat_toNat] at listed
    exact .letter listed
  unfold escapeCharacter
  split_ifs with special printable
  · refine ⟨_, .itself, .letter ?_⟩
    rcases special with rfl | rfl <;> decide
  · exact ⟨_, .itself, .plain printable (not_or.mp special)⟩
  · split
    · next code => exact ⟨_, .itself, letter _ _ code (by decide)⟩
    · next code => exact ⟨_, .itself, letter _ _ code (by decide)⟩
    · next code => exact ⟨_, .itself, letter _ _ code (by decide)⟩
    · next code => exact ⟨_, .itself, letter _ _ code (by decide)⟩
    · next code => exact ⟨_, .itself, letter _ _ code (by decide)⟩
    · have written := PieceText.codeUnit (writesHex_hexDigit (by decide : 0 < 16))
        (writesHex_hexDigit (by decide : 0 < 16))
        (writesHex_hexDigit (by omega : character.toNat / 16 < 16))
        (writesHex_hexDigit (by omega : character.toNat % 16 < 16))
      have unit : ((0 * 16 + 0) * 16 + character.toNat / 16) * 16 + character.toNat % 16 =
          character.toNat := by
        omega
      rw [unit] at written
      exact ⟨_, .codeUnit, written⟩

/-- A quoted text is one of the spellings of its string. -/
theorem stringText_quote (content : String) : StringText content (quote content).toList := by
  have escaped : ∀ content : List Char, ∃ pieces, Concatenated CharacterPieces content pieces ∧
      Concatenated PieceText pieces (content.flatMap escapeCharacter) := by
    intro content
    induction content with
    | nil => exact ⟨[], .nil, .nil⟩
    | cons character content inductionHypothesis =>
        obtain ⟨piece, standsFor, written⟩ := exists_pieceText_escapeCharacter character
        obtain ⟨pieces, standFor, allWritten⟩ := inductionHypothesis
        exact ⟨piece :: pieces, .cons standsFor standFor, .cons written allWritten⟩
  obtain ⟨pieces, standFor, written⟩ := escaped content.toList
  refine ⟨pieces, standFor, ?_⟩
  rw [quote, String.toList_ofList]
  exact .intro written

/-- A quoted name, a colon and a value are one of the spellings of a member. -/
theorem namedText_written
    {name text : String}
    {value : List Char → Prop}
    (written : value text.toList) :
    NamedText (StringText name) value (quote name ++ ":" ++ text).toList := by
  rw [String.toList_append, String.toList_append, List.append_assoc]
  exact namedText_append (stringText_quote name) written

end Written

end NetworkConsole.Json
