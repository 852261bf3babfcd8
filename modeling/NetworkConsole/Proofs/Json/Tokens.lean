import NetworkConsole.Json.Value
import NetworkConsole.Proofs.Json.Grammar
import NetworkConsole.Proofs.Number.Numeral

/-!
# Tokens of JSON texts

Every spelling of a part of a JSON text is read as the same tokens, whatever spelling it
is and whatever stands after it.
-/

namespace NetworkConsole.Json

/-! ## Strings -/

theorem hexValue?_of_writesHex
    {value : Nat}
    {digit : Char}
    (written : WritesHex value digit) :
    hexValue? digit = some value := by
  have lower : ∀ value < 16,
      ("0123456789abcdef".toList[value]?).bind hexValue? = some value := by decide
  have upper : ∀ value < 16,
      ("0123456789ABCDEF".toList[value]?).bind hexValue? = some value := by decide
  rcases written with found | found
  · obtain ⟨bound, -⟩ := List.getElem?_eq_some_iff.mp found
    rw [← lower value bound, found, Option.bind_some]
  · obtain ⟨bound, -⟩ := List.getElem?_eq_some_iff.mp found
    rw [← upper value bound, found, Option.bind_some]

theorem readPieces_of_pieceText
    {piece : Piece}
    {text : List Char}
    (written : PieceText piece text)
    (done : List Piece)
    (rest : List Char) :
    readPieces done (text ++ rest) = readPieces (piece :: done) rest := by
  cases written with
  | plain printable ordinary =>
      rw [List.singleton_append, readPieces.eq_def]
      dsimp only
      rw [if_neg ordinary.1, if_neg ordinary.2, if_neg (Nat.not_lt.mpr printable)]
  | letter listed =>
      simp only [letterEscapes, List.mem_cons, Prod.mk.injEq, List.not_mem_nil, or_false] at listed
      rcases listed with ⟨rfl, rfl⟩ | ⟨rfl, rfl⟩ | ⟨rfl, rfl⟩ | ⟨rfl, rfl⟩ | ⟨rfl, rfl⟩ |
        ⟨rfl, rfl⟩ | ⟨rfl, rfl⟩ | ⟨rfl, rfl⟩ <;> rfl
  | codeUnit writtenFirst writtenSecond writtenThird writtenFourth =>
      simp [readPieces, quoteMark, escapeMark, hexValue?_of_writesHex writtenFirst,
        hexValue?_of_writesHex writtenSecond, hexValue?_of_writesHex writtenThird,
        hexValue?_of_writesHex writtenFourth]

theorem readPieces_of_concatenated
    {pieces : List Piece}
    {body : List Char}
    (written : Concatenated PieceText pieces body)
    (done : List Piece)
    (rest : List Char) :
    readPieces done (body ++ quoteMark :: rest) = some (done.reverse ++ pieces, rest) := by
  induction written generalizing done with
  | nil =>
      rw [List.nil_append, List.append_nil, readPieces.eq_def]
      exact if_pos rfl
  | cons head tail inductionHypothesis =>
      rw [List.append_assoc, readPieces_of_pieceText head, inductionHypothesis,
        List.reverse_cons, List.append_assoc, List.singleton_append]

theorem textOf?_codeUnit_cons
    {unit : Nat}
    (noHigh : isHighSurrogate unit = false)
    (noLow : isLowSurrogate unit = false)
    (rest : List Piece) :
    textOf? (.codeUnit unit :: rest) = (textOf? rest).map (Char.ofNat unit :: ·) := by
  cases rest with
  | nil => simp [textOf?, noHigh, noLow]
  | cons piece rest => cases piece <;> simp [textOf?, noHigh, noLow]

theorem textOf?_of_characterPieces
    {character : Char}
    {pieces : List Piece}
    (standFor : CharacterPieces character pieces)
    (rest : List Piece) :
    textOf? (pieces ++ rest) = (textOf? rest).map (character :: ·) := by
  cases standFor with
  | itself => rfl
  | codeUnit =>
      have noSurrogate : character.toNat < 0xd800 ∨ 0xdfff < character.toNat :=
        character.valid.imp_right And.left
      have noHigh : isHighSurrogate character.toNat = false := by
        simp only [isHighSurrogate, Bool.and_eq_false_iff, decide_eq_false_iff_not]
        omega
      have noLow : isLowSurrogate character.toNat = false := by
        simp only [isLowSurrogate, Bool.and_eq_false_iff, decide_eq_false_iff_not]
        omega
      rw [List.singleton_append, textOf?_codeUnit_cons noHigh noLow, Char.ofNat_toNat]
  | surrogates isHigh isLow encoded =>
      simp only [List.cons_append, List.nil_append]
      rw [textOf?, ← encoded, Char.ofNat_toNat]
      simp [isHighSurrogate, isLowSurrogate, isHigh, isLow]

/-- Pieces that stand for characters denote the text of these. -/
theorem textOf?_of_concatenated
    {content : List Char}
    {pieces : List Piece}
    (standFor : Concatenated CharacterPieces content pieces) :
    textOf? pieces = some content := by
  induction standFor with
  | nil => rfl
  | cons head tail inductionHypothesis =>
      rw [textOf?_of_characterPieces head, inductionHypothesis, Option.map_some]

/-! ## Numbers -/

/-- Whether a number is over where a text begins. -/
def IsDelimited (rest : List Char) : Prop :=
  ∀ character ∈ rest.head?, character.isDigit = false ∧ character ∉ ['.', 'e', 'E']

theorem readDigits?_append
    {digits rest : List Char}
    (isDigits : IsDigits digits)
    (stopped : ∀ character ∈ rest.head?, character.isDigit = false) :
    readDigits? (digits ++ rest) = some (digits, rest) := by
  obtain ⟨taken, left⟩ := Number.span_append isDigits.2 stopped
  rw [readDigits?, taken, left]
  exact if_neg (mt List.isEmpty_iff.mp isDigits.1)

theorem IsDigits.exists_eq_cons
    {digits : List Char}
    (isDigits : IsDigits digits) :
    ∃ first rest, digits = first :: rest ∧ first.isDigit = true := by
  obtain ⟨first, rest, rfl⟩ := List.exists_cons_of_ne_nil isDigits.1
  exact ⟨first, rest, rfl, isDigits.2 first List.mem_cons_self⟩

theorem readExponent?_append
    {exponent : Int}
    {scaled rest : List Char}
    (written : ExponentText exponent scaled)
    (delimited : IsDelimited rest) :
    readExponent? (scaled ++ rest) = some (!scaled.isEmpty, rest) := by
  have stopped : ∀ character ∈ rest.head?, character.isDigit = false :=
    fun character head => (delimited character head).1
  cases written with
  | absent =>
      cases rest with
      | nil => rfl
      | cons mark rest =>
          have noMark := (delimited mark rfl).2
          simp only [List.mem_cons, List.not_mem_nil, or_false, not_or] at noMark
          exact if_neg (not_or.mpr noMark.2)
  | unsigned isMark isDigits =>
      obtain ⟨first, digits, rfl, isDigit⟩ := isDigits.exists_eq_cons
      rw [List.cons_append, readExponent?.eq_def]
      dsimp only
      rw [if_pos isMark]
      split
      · next sign =>
          cases sign
          cases isDigit
      · next sign =>
          cases sign
          cases isDigit
      · rw [readDigits?_append isDigits stopped]
        rfl
  | positive isMark isDigits =>
      simp [readExponent?, isMark, readDigits?_append isDigits stopped]
  | negative isMark isDigits =>
      simp [readExponent?, isMark, readDigits?_append isDigits stopped]

theorem ExponentText.stops
    {exponent : Int}
    {scaled rest : List Char}
    (written : ExponentText exponent scaled)
    (delimited : IsDelimited rest) :
    ∀ character ∈ (scaled ++ rest).head?, character.isDigit = false ∧ character ≠ '.' := by
  have mark : ∀ mark, mark = 'e' ∨ mark = 'E' → mark.isDigit = false ∧ mark ≠ '.' := by
    rintro mark (rfl | rfl) <;> decide
  cases written with
  | absent =>
      intro character head
      refine (delimited character head).imp_right ?_
      rintro outside rfl
      exact outside List.mem_cons_self
  | unsigned isMark isDigits =>
      rintro character ⟨⟩
      exact mark _ isMark
  | positive isMark isDigits =>
      rintro character ⟨⟩
      exact mark _ isMark
  | negative isMark isDigits =>
      rintro character ⟨⟩
      exact mark _ isMark

theorem readFraction?_append
    {fraction pointed rest : List Char}
    (written : FractionText fraction pointed)
    (stopped : ∀ character ∈ rest.head?, character.isDigit = false ∧ character ≠ '.') :
    readFraction? (pointed ++ rest) = some (!pointed.isEmpty, rest) := by
  cases written with
  | absent =>
      rw [List.nil_append]
      unfold readFraction?
      split
      · exact absurd rfl (stopped '.' rfl).2
      · rfl
  | present isDigits =>
      rw [List.cons_append, readFraction?,
        readDigits?_append isDigits fun character head => (stopped character head).1]
      rfl

theorem FractionText.stops
    {fraction pointed rest : List Char}
    (written : FractionText fraction pointed)
    (stopped : ∀ character ∈ rest.head?, character.isDigit = false ∧ character ≠ '.') :
    ∀ character ∈ (pointed ++ rest).head?, character.isDigit = false := by
  cases written with
  | absent => exact fun character head => (stopped character head).1
  | present isDigits =>
      rintro character ⟨⟩
      rfl

theorem natural_eq_digitsValue (digits : List Char) :
    natural digits = Number.digitsValue digits := rfl

/-- A number is read up to its end. Its value is kept if it is written without a sign, a
point and an exponent. -/
theorem readNumber?_append
    {sign exponent : Int}
    {whole fraction signed pointed scaled rest : List Char}
    (writtenSign : SignText sign signed)
    (isWhole : IsWhole whole)
    (writtenFraction : FractionText fraction pointed)
    (writtenExponent : ExponentText exponent scaled)
    (delimited : IsDelimited rest) :
    readNumber? (signed ++ whole ++ pointed ++ scaled ++ rest) =
      some
        (.number (if signed.isEmpty && pointed.isEmpty && scaled.isEmpty then
          some (Number.digitsValue whole) else none), rest) := by
  have stopped := writtenExponent.stops delimited
  have digits := readDigits?_append isWhole.1 (writtenFraction.stops stopped)
  have noLeadingZero : ¬ (whole.length ≠ 1 ∧ whole.head? = some '0') :=
    fun leadingZero => leadingZero.1 (isWhole.2 leadingZero.2)
  have fractionRead := readFraction?_append writtenFraction stopped
  have exponentRead := readExponent?_append writtenExponent delimited
  simp only [List.append_assoc]
  cases writtenSign with
  | positive =>
      obtain ⟨first, others, rfl, isDigit⟩ := isWhole.1.exists_eq_cons
      have noSign : first ≠ '-' := by
        rintro rfl
        cases isDigit
      rw [List.cons_append] at digits
      simpa [readNumber?, noSign, digits, fractionRead, exponentRead, natural_eq_digitsValue]
        using noLeadingZero
  | negative => simp [readNumber?, digits, noLeadingZero, fractionRead, exponentRead]

/-! ## Token lists -/

/-- A text that is read token by token to its end. -/
inductive Lexed : List Char → List Token → Prop
  | nil : Lexed [] []
  | space
      {character : Char}
      {text : List Char}
      {tokens : List Token}
      (isSpace : isSpace character = true)
      (later : Lexed text tokens) :
      Lexed (character :: text) tokens
  | token
      {first : Char}
      {text rest : List Char}
      {token : Token}
      {tokens : List Token}
      (visible : isSpace first = false)
      (read : readToken? (first :: text) = some (token, rest))
      (shorter : rest.length ≤ text.length)
      (later : Lexed rest tokens) :
      Lexed (first :: text) (token :: tokens)

theorem tokensWithin_nil (done : List Token) (limit : Nat) :
    tokensWithin done limit [] = some done.reverse := by
  cases limit <;> rfl

theorem tokensWithin_space
    {character : Char}
    (space : isSpace character = true)
    (done : List Token)
    (limit : Nat)
    (text : List Char) :
    tokensWithin done limit (character :: text) = tokensWithin done limit text := by
  rw [tokensWithin.eq_def, tokensWithin.eq_def done limit text]
  dsimp only
  rw [List.dropWhile_cons_of_pos space]

theorem tokensWithin_token
    {first : Char}
    {text rest : List Char}
    {token : Token}
    (visible : isSpace first = false)
    (read : readToken? (first :: text) = some (token, rest))
    (done : List Token)
    (limit : Nat) :
    tokensWithin done (limit + 1) (first :: text) = tokensWithin (token :: done) limit rest := by
  rw [tokensWithin.eq_def]
  dsimp only
  rw [List.dropWhile_cons_of_neg (Bool.eq_false_iff.mp visible)]
  dsimp only
  rw [read]

namespace Lexed

variable {text rest : List Char} {tokens later : List Token}

theorem tokensWithin_eq
    (lexed : Lexed text tokens)
    {limit : Nat}
    (enough : text.length ≤ limit)
    (done : List Token) :
    tokensWithin done limit text = some (done.reverse ++ tokens) := by
  induction lexed generalizing limit done with
  | nil => rw [tokensWithin_nil, List.append_nil]
  | space space later inductionHypothesis =>
      rw [tokensWithin_space space, inductionHypothesis (Nat.le_of_succ_le enough)]
  | token visible read shorter later inductionHypothesis =>
      obtain ⟨limit, rfl⟩ := Nat.exists_eq_add_of_le' (Nat.le_trans (Nat.succ_pos _) enough)
      rw [tokensWithin_token visible read,
        inductionHypothesis (shorter.trans (Nat.le_of_succ_le_succ enough)), List.reverse_cons,
        List.append_assoc, List.singleton_append]

/-- The tokens of a text that is read token by token. -/
theorem tokens?_eq (lexed : Lexed text tokens) : tokens? text = some tokens :=
  lexed.tokensWithin_eq le_rfl []

theorem spacing
    (isSpacing : IsSpacing text)
    (lexed : Lexed rest later) :
    Lexed (text ++ rest) later := by
  induction text with
  | nil => exact lexed
  | cons character text inductionHypothesis =>
      exact .space (isSpacing character List.mem_cons_self)
        (inductionHypothesis fun other member => isSpacing other (List.mem_cons_of_mem _ member))

end Lexed

/-- The tokens of one character. -/
def marks : List (Char × Token) :=
  [('\x7b', .openObject), ('\x7d', .closeObject), ('[', .openArray), (']', .closeArray),
   (':', .colon), (',', .comma)]

theorem Lexed.mark
    {character : Char}
    {token : Token}
    {rest : List Char}
    {later : List Token}
    (listed : (character, token) ∈ marks)
    (lexed : Lexed rest later) :
    Lexed (character :: rest) (token :: later) := by
  simp only [marks, List.mem_cons, Prod.mk.injEq, List.not_mem_nil, or_false] at listed
  rcases listed with ⟨rfl, rfl⟩ | ⟨rfl, rfl⟩ | ⟨rfl, rfl⟩ | ⟨rfl, rfl⟩ | ⟨rfl, rfl⟩ | ⟨rfl, rfl⟩ <;>
    exact .token rfl rfl le_rfl lexed

theorem isDelimited_mark
    {character : Char}
    {token : Token}
    (listed : (character, token) ∈ marks)
    (rest : List Char) :
    IsDelimited (character :: rest) := by
  have apart : ∀ mark ∈ marks, mark.1.isDigit = false ∧ mark.1 ∉ ['.', 'e', 'E'] := by decide
  rintro first ⟨⟩
  exact apart _ listed

theorem isDelimited_nil : IsDelimited [] := by
  rintro character ⟨⟩

theorem isSpace_iff {character : Char} :
    isSpace character = true ↔
      character = ' ' ∨ character = '\t' ∨ character = '\n' ∨ character = '\r' := by
  simp only [isSpace, Bool.or_eq_true, decide_eq_true_eq, or_assoc]

theorem IsSpacing.isDelimited_append
    {text rest : List Char}
    (isSpacing : IsSpacing text)
    (delimited : IsDelimited rest) :
    IsDelimited (text ++ rest) := by
  cases text with
  | nil => exact delimited
  | cons character text =>
      rintro first ⟨⟩
      rcases isSpace_iff.mp (isSpacing _ List.mem_cons_self) with rfl | rfl | rfl | rfl <;> decide

/-! ## Parts of a text -/

/-- A part of a text that is read as the same tokens before every text that delimits it. -/
def Yields (text : List Char) (tokens : List Token) : Prop :=
  ∀ rest later, IsDelimited rest → Lexed rest later → Lexed (text ++ rest) (tokens ++ later)

namespace Yields

variable {text : List Char} {tokens : List Token}

theorem tokens?_eq (yields : Yields text tokens) : tokens? text = some tokens := by
  have lexed := yields [] [] isDelimited_nil .nil
  rw [List.append_nil, List.append_nil] at lexed
  exact lexed.tokens?_eq

theorem spaceBefore
    {before : List Char}
    (isSpacing : IsSpacing before)
    (yields : Yields text tokens) :
    Yields (before ++ text) tokens := by
  intro rest later delimited lexed
  rw [List.append_assoc]
  exact (yields rest later delimited lexed).spacing isSpacing

theorem spaceAfter
    {after : List Char}
    (yields : Yields text tokens)
    (isSpacing : IsSpacing after) :
    Yields (text ++ after) tokens := by
  intro rest later delimited lexed
  rw [List.append_assoc]
  exact yields _ later (isSpacing.isDelimited_append delimited) (lexed.spacing isSpacing)

/-- Two parts with a token of one character between them. -/
theorem divided
    {character : Char}
    {token : Token}
    {last : List Char}
    {others : List Token}
    (yields : Yields text tokens)
    (listed : (character, token) ∈ marks)
    (lastYields : Yields last others) :
    Yields (text ++ character :: last) (tokens ++ token :: others) := by
  intro rest later delimited lexed
  rw [List.append_assoc, List.append_assoc]
  exact yields _ _ (isDelimited_mark listed _) ((lastYields rest later delimited lexed).mark listed)

/-- A part between two tokens of one character. -/
theorem bracketed
    {opening closing : Char}
    {openToken closeToken : Token}
    (openListed : (opening, openToken) ∈ marks)
    (closeListed : (closing, closeToken) ∈ marks)
    (yields : Yields text tokens) :
    Yields (opening :: text ++ [closing]) (openToken :: tokens ++ [closeToken]) := by
  intro rest later delimited lexed
  have inside := yields _ _ (isDelimited_mark closeListed rest) (lexed.mark closeListed)
  rw [List.append_assoc, List.append_assoc]
  exact inside.mark openListed

end Yields

theorem yields_spacing {text : List Char} (isSpacing : IsSpacing text) : Yields text [] :=
  fun _ _ _ lexed => lexed.spacing isSpacing

/-- A part of a text that is read as tokens with a given meaning. -/
def HasTokens (means : List Token → Prop) (text : List Char) : Prop :=
  ∃ tokens, Yields text tokens ∧ means tokens

theorem HasTokens.imp
    {means others : List Token → Prop}
    {text : List Char}
    (hasTokens : HasTokens means text)
    (implies : ∀ tokens, means tokens → others tokens) :
    HasTokens others text := by
  obtain ⟨tokens, yields, isMeant⟩ := hasTokens
  exact ⟨tokens, yields, implies tokens isMeant⟩

theorem Padded.hasTokens
    {α : Type}
    {part : α → List Char → Prop}
    {value : α}
    {text : List Char}
    {means : List Token → Prop}
    (written : Padded part value text)
    (each : ∀ text, part value text → HasTokens means text) :
    HasTokens means text := by
  obtain ⟨spacingBefore, inside, spacingAfter⟩ := written
  obtain ⟨tokens, yields, isMeant⟩ := each _ inside
  exact ⟨tokens, (yields.spaceBefore spacingBefore).spaceAfter spacingAfter, isMeant⟩

theorem yields_quotedText
    {pieces : List Piece}
    {text : List Char}
    (written : QuotedText pieces text) :
    Yields text [.text (textOf? pieces)] := by
  obtain ⟨body⟩ := written
  intro rest later delimited lexed
  rw [List.append_assoc, List.cons_append]
  apply Lexed.token rfl _ _ lexed
  · have read := readPieces_of_concatenated body [] rest
    change (readPieces [] _).map _ = _
    rw [List.singleton_append, read]
    rfl
  · rw [List.length_append, List.singleton_append, List.length_cons]
    omega

/-- The spellings of a string are read as its text. -/
theorem yields_stringText
    {content : String}
    {text : List Char}
    (written : StringText content text) :
    Yields text [.text (some content.toList)] := by
  obtain ⟨pieces, standFor, quoted⟩ := written
  rw [← textOf?_of_concatenated standFor]
  exact yields_quotedText quoted

theorem yields_word
    {word : String}
    (listed : word ∈ words) :
    Yields word.toList [.word] := by
  simp only [words, List.mem_cons, List.not_mem_nil, or_false] at listed
  intro rest later delimited lexed
  rcases listed with rfl | rfl | rfl
  all_goals
    apply Lexed.token rfl rfl _ lexed
    simp only [List.append_eq, List.length_append]
    omega

theorem readToken?_eq_readNumber?
    {first : Char}
    (begins : first.isDigit = true ∨ first = '-')
    (text : List Char) :
    readToken? (first :: text) = readNumber? (first :: text) := by
  unfold readToken?
  rcases begins with isDigit | rfl
  · split
    all_goals
      first
        | rfl
        | next same =>
            cases same
            cases isDigit
  · rfl

theorem yields_of_readNumber?
    {text : List Char}
    {token : Token}
    (begins : ∃ first others, text = first :: others ∧ (first.isDigit = true ∨ first = '-'))
    (read : ∀ rest, IsDelimited rest → readNumber? (text ++ rest) = some (token, rest)) :
    Yields text [token] := by
  obtain ⟨first, others, rfl, begins⟩ := begins
  intro rest later delimited lexed
  have visible : isSpace first = false := by
    rcases begins with isDigit | rfl
    · refine Bool.eq_false_iff.mpr fun space => ?_
      rcases isSpace_iff.mp space with rfl | rfl | rfl | rfl <;> cases isDigit
    · rfl
  rw [List.cons_append]
  apply Lexed.token visible _ _ lexed
  · exact (readToken?_eq_readNumber? begins _).trans (read rest delimited)
  · rw [List.length_append]
    omega

theorem NumberText.exists_yields
    {value : Rat}
    {text : List Char}
    (written : NumberText value text) :
    ∃ natural, Yields text [.number natural] := by
  obtain ⟨writtenSign, isWhole, writtenFraction, writtenExponent⟩ := written
  refine ⟨_, yields_of_readNumber? ?_ fun rest =>
    readNumber?_append writtenSign isWhole writtenFraction writtenExponent⟩
  cases writtenSign with
  | positive =>
      obtain ⟨first, others, rfl, isDigit⟩ := isWhole.1.exists_eq_cons
      exact ⟨first, _, rfl, .inl isDigit⟩
  | negative => exact ⟨'-', _, rfl, .inr rfl⟩

/-- The spellings of a natural number are read as the number. -/
theorem yields_naturalText
    {value : Nat}
    {text : List Char}
    (written : NaturalText value text) :
    Yields text [.number (some value)] := by
  obtain ⟨isWhole, rfl⟩ := written
  apply yields_of_readNumber?
  · obtain ⟨first, others, rfl, isDigit⟩ := isWhole.1.exists_eq_cons
    exact ⟨first, others, rfl, .inl isDigit⟩
  · intro rest delimited
    have read := readNumber?_append .positive isWhole .absent .absent delimited
    simpa using read

end NetworkConsole.Json
