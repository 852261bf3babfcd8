import NetworkConsole.Proofs.Json.Tokens

/-!
# Structure of token lists

The spellings of an array or an object are read as the tokens of its items with commas
between them. A reader of such a list gives back the items, and a value whose content
does not matter is passed over to its end.
-/

namespace NetworkConsole.Json

variable {α : Type}

/-! ## Brackets -/

/-- The token lists of an array. -/
abbrev ArrayTokens (means : α → List Token → Prop) : List α → List Token → Prop :=
  Bracketed .openArray .closeArray .comma (· = []) means

/-- The token lists of an object. -/
abbrev ObjectTokens (means : α → List Token → Prop) : List α → List Token → Prop :=
  Bracketed .openObject .closeObject .comma (· = []) means

section Brackets

variable
  {item : α → List Char → Prop}
  {means : α → List Token → Prop}
  {values : List α}
  {text : List Char}

theorem Divided.hasTokens
    (each : ∀ value text, item value text → HasTokens (means value) text)
    (written : Divided ',' (Padded item) values text) :
    HasTokens (Divided .comma means values) text := by
  induction written with
  | one head =>
      obtain ⟨tokens, yields, isMeant⟩ := head.hasTokens (each _)
      exact ⟨tokens, yields, .one isMeant⟩
  | more head tail inductionHypothesis =>
      obtain ⟨tokens, yields, isMeant⟩ := head.hasTokens (each _)
      obtain ⟨others, othersYield, divided⟩ := inductionHypothesis
      exact ⟨_, yields.divided (by decide) othersYield, .more isMeant divided⟩

/-- Bracketed items of a text are read as bracketed items of a token list. -/
theorem Bracketed.hasTokens
    {opening closing : Char}
    {openToken closeToken : Token}
    (openListed : (opening, openToken) ∈ marks)
    (closeListed : (closing, closeToken) ∈ marks)
    (each : ∀ value text, item value text → HasTokens (means value) text)
    (written : Bracketed opening closing ',' IsSpacing (Padded item) values text) :
    HasTokens (Bracketed openToken closeToken .comma (· = []) means values) text := by
  cases written with
  | empty isSpacing =>
      exact ⟨_, (yields_spacing isSpacing).bracketed openListed closeListed, .empty rfl⟩
  | full divided =>
      obtain ⟨tokens, yields, dividedTokens⟩ := divided.hasTokens each
      exact ⟨_, yields.bracketed openListed closeListed, .full dividedTokens⟩

/-- The spellings of an array are read as its items. -/
theorem ArrayText.hasTokens
    (each : ∀ value text, item value text → HasTokens (means value) text)
    (written : ArrayText item values text) :
    HasTokens (ArrayTokens means values) text :=
  Bracketed.hasTokens (by decide) (by decide) each written

/-- The spellings of an object are read as its members. -/
theorem ObjectText.hasTokens
    (each : ∀ value text, item value text → HasTokens (means value) text)
    (written : ObjectText item values text) :
    HasTokens (ObjectTokens means values) text :=
  Bracketed.hasTokens (by decide) (by decide) each written

end Brackets

theorem NamedText.hasTokens
    {name value : List Char → Prop}
    {nameMeans valueMeans : List Token → Prop}
    {text : List Char}
    (eachName : ∀ text, name text → HasTokens nameMeans text)
    (eachValue : ∀ text, value text → HasTokens valueMeans text)
    (written : NamedText name value text) :
    ∃ first last, Yields text (first ++ .colon :: last) ∧ nameMeans first ∧ valueMeans last := by
  obtain ⟨writtenName, spacingBefore, spacingAfter, writtenValue⟩ := written
  obtain ⟨first, nameYields, isName⟩ := eachName _ writtenName
  obtain ⟨last, valueYields, isValue⟩ := eachValue _ writtenValue
  refine ⟨first, last, ?_, isName, isValue⟩
  rw [List.append_assoc]
  exact (nameYields.spaceAfter spacingBefore).divided (by decide)
    (valueYields.spaceBefore spacingAfter)

/-! ## Readers -/

/-- Tokens that are read as a value, whatever follows them. -/
def Reads (reader : Reader α) (value : α) (tokens : List Token) : Prop :=
  ∀ rest, reader (tokens ++ rest) = some (value, rest)

section Readers

variable
  {item : Reader α}
  {close : Token}
  {values : List α}
  {tokens : List Token}

theorem separated_comma
    {value : α}
    {rest : List Token}
    (read : item tokens = some (value, .comma :: rest))
    (limit : Nat) :
    separated item close (limit + 1) tokens =
      (separated item close limit rest).map fun (others, after) => (value :: others, after) := by
  rw [separated, read]

theorem separated_close
    {value : α}
    {rest : List Token}
    (apart : close ≠ .comma)
    (read : item tokens = some (value, close :: rest))
    (limit : Nat) :
    separated item close (limit + 1) tokens = some ([value], rest) := by
  rw [separated, read]
  split
  · next same =>
      cases same
      exact absurd rfl apart
  · next same =>
      cases same
      exact if_pos rfl
  · next other => exact absurd rfl (other _ _ _)

theorem items_eq_separated
    {found : α × List Token}
    (refused : ∀ rest, item (close :: rest) = none)
    (read : item tokens = some found) :
    items item close tokens = separated item close tokens.length tokens := by
  cases tokens with
  | nil => rfl
  | cons token rest =>
      apply if_neg
      rintro rfl
      rw [refused] at read
      cases read

theorem Divided.length_le
    {β : Type}
    {divider : β}
    {part : α → List β → Prop}
    {written : List β}
    (divided : Divided divider part values written) :
    values.length ≤ written.length + 1 := by
  induction divided with
  | one => simp
  | more head tail inductionHypothesis =>
      simp only [List.length_append, List.length_cons]
      omega

theorem Divided.separated_eq
    (apart : close ≠ .comma)
    (divided : Divided .comma (Reads item) values tokens)
    {limit : Nat}
    (enough : values.length ≤ limit)
    (rest : List Token) :
    separated item close limit (tokens ++ close :: rest) = some (values, rest) := by
  induction divided generalizing limit with
  | one head =>
      obtain ⟨limit, rfl⟩ := Nat.exists_eq_add_of_le' enough
      exact separated_close apart (head _) limit
  | more head tail inductionHypothesis =>
      obtain ⟨limit, rfl⟩ := Nat.exists_eq_add_of_le' (Nat.le_trans (Nat.succ_pos _) enough)
      rw [List.append_assoc, List.cons_append, separated_comma (head _),
        inductionHypothesis (Nat.le_of_succ_le_succ enough), Option.map_some]

theorem Divided.exists_read
    (divided : Divided .comma (Reads item) values tokens)
    (rest : List Token) :
    ∃ found, item (tokens ++ rest) = some found := by
  cases divided with
  | one head => exact ⟨_, head rest⟩
  | more head tail =>
      rw [List.append_assoc]
      exact ⟨_, head _⟩

/-- Bracketed items are read back after their opening bracket, if no item begins with the
closing one. -/
theorem Bracketed.reads_items
    {opening : Token}
    (apart : close ≠ .comma)
    (refused : ∀ rest, item (close :: rest) = none)
    (bracketed : Bracketed opening close .comma (· = []) (Reads item) values tokens) :
    ∃ inside, tokens = opening :: inside ∧ Reads (items item close) values inside := by
  cases bracketed with
  | empty nothing =>
      subst nothing
      exact ⟨[close], rfl, fun rest => if_pos rfl⟩
  | @full values inside divided =>
      refine ⟨inside ++ [close], rfl, fun rest => ?_⟩
      rw [List.append_assoc, List.singleton_append]
      obtain ⟨found, read⟩ := divided.exists_read (close :: rest)
      rw [items_eq_separated refused read]
      apply divided.separated_eq apart
      have bound := divided.length_le
      simp only [List.length_append, List.length_cons]
      omega

end Readers

/-! ## Values that are passed over -/

namespace Frame

/-- The token that begins a bracket. -/
def opening : Frame → Token
  | .array => .openArray
  | .object => .openObject

/-- The token that ends a bracket. -/
def closing : Frame → Token
  | .array => .closeArray
  | .object => .closeObject

/-- What must come directly after the start of a bracket. -/
def first : Frame → Expectation
  | .array => .firstItem
  | .object => .firstMember

/-- What must come after a comma. -/
def next : Frame → Expectation
  | .array => .value
  | .object => .name

end Frame

namespace Skip

/-- Pass over what is left of a value. -/
def resume (skip : Skip) (tokens : List Token) : Option (List Token) :=
  if skip.isDone then some tokens else skip.run tokens

theorem run_cons (skip : Skip) (token : Token) (rest : List Token) :
    skip.run (token :: rest) = (skip.step token).bind fun next => next.resume rest := by
  rw [run]
  cases skip.step token <;> rfl

theorem resume_cons
    (frame : Frame)
    (frames : List Frame)
    (expects : Expectation)
    (tokens : List Token) :
    (Skip.mk (frame :: frames) expects).resume tokens =
      (Skip.mk (frame :: frames) expects).run tokens := rfl

end Skip

/-- Tokens of one value, which is passed over within any brackets. -/
def PassesOver (tokens : List Token) : Prop :=
  ∃ first others, tokens = first :: others ∧
    ∀ frames rest, ((Skip.enterValue frames first).bind fun next => next.resume (others ++ rest)) =
      (Skip.mk frames .afterValue).resume rest

/-- Tokens of one item of a bracket, at its start or after a comma. -/
def IsItem (frame : Frame) (tokens : List Token) : Prop :=
  ∀ expects, expects = frame.first ∨ expects = frame.next → ∀ frames rest,
    (Skip.mk (frame :: frames) expects).run (tokens ++ rest) =
      (Skip.mk (frame :: frames) .afterValue).run rest

namespace PassesOver

variable {tokens : List Token}

theorem run_value
    (passesOver : PassesOver tokens)
    (frames : List Frame)
    (rest : List Token) :
    (Skip.mk frames .value).run (tokens ++ rest) = (Skip.mk frames .afterValue).resume rest := by
  obtain ⟨first, others, rfl, passes⟩ := passesOver
  rw [List.cons_append, Skip.run_cons]
  exact passes frames rest

theorem skipValue_eq
    (passesOver : PassesOver tokens)
    (rest : List Token) :
    skipValue (tokens ++ rest) = some rest :=
  passesOver.run_value [] rest

theorem isItem (passesOver : PassesOver tokens) : IsItem .array tokens := by
  rintro expects (rfl | rfl) frames rest
  · obtain ⟨first, others, rfl, passes⟩ := passesOver
    rw [List.cons_append, Skip.run_cons, ← Skip.resume_cons, ← passes]
    -- A value does not begin with the end of an array.
    cases first with
    | closeArray => cases passes [] []
    | _ => rfl
  · exact passesOver.run_value (.array :: frames) rest

theorem isItem_named
    (passesOver : PassesOver tokens)
    (name : Option (List Char)) :
    IsItem .object (.text name :: .colon :: tokens) := by
  have value : ∀ frames rest,
      (Skip.mk (.object :: frames) .colon).run (.colon :: tokens ++ rest) =
        (Skip.mk (.object :: frames) .afterValue).run rest := by
    intro frames rest
    exact passesOver.run_value (.object :: frames) rest
  rintro expects (rfl | rfl) frames rest
  · exact value frames rest
  · exact value frames rest

theorem of_leaf
    {token : Token}
    (isLeaf : ∀ frames, Skip.enterValue frames token = some ⟨frames, .afterValue⟩) :
    PassesOver [token] := by
  refine ⟨token, [], rfl, fun frames rest => ?_⟩
  rw [isLeaf]
  rfl

end PassesOver

section Passing

variable {frame : Frame} {items : List Unit} {tokens : List Token}

theorem Skip.run_closing
    {expects : Expectation}
    (ends : expects = frame.first ∨ expects = .afterValue)
    (frames : List Frame)
    (rest : List Token) :
    (Skip.mk (frame :: frames) expects).run (frame.closing :: rest) =
      (Skip.mk frames .afterValue).resume rest := by
  rcases ends with rfl | rfl <;> cases frame <;> rfl

theorem Divided.run_eq
    (divided : Divided .comma (fun _ : Unit => IsItem frame) items tokens)
    {expects : Expectation}
    (begins : expects = frame.first ∨ expects = frame.next)
    (frames : List Frame)
    (rest : List Token) :
    (Skip.mk (frame :: frames) expects).run (tokens ++ frame.closing :: rest) =
      (Skip.mk frames .afterValue).resume rest := by
  induction divided generalizing expects with
  | one head => rw [head expects begins, Skip.run_closing (.inr rfl)]
  | more head tail inductionHypothesis =>
      rw [List.append_assoc, head expects begins, ← inductionHypothesis (.inr rfl)]
      cases frame <;> rfl

/-- A bracket of items is passed over as one value. -/
theorem Bracketed.passesOver
    (frame : Frame)
    (bracketed : Bracketed frame.opening frame.closing .comma (· = [])
      (fun _ : Unit => IsItem frame) items tokens) :
    PassesOver tokens := by
  have entered : ∀ frames, Skip.enterValue frames frame.opening =
      some ⟨frame :: frames, frame.first⟩ := by
    intro frames
    cases frame <;> rfl
  cases bracketed with
  | empty nothing =>
      subst nothing
      refine ⟨frame.opening, [frame.closing], rfl, fun frames rest => ?_⟩
      rw [entered, Option.bind_some]
      exact Skip.run_closing (.inl rfl) frames rest
  | @full items inside divided =>
      refine ⟨frame.opening, inside ++ [frame.closing], rfl, fun frames rest => ?_⟩
      rw [entered, Option.bind_some, List.append_assoc]
      exact divided.run_eq (.inl rfl) frames rest

end Passing

theorem LeafText.hasTokens
    {text : List Char}
    (written : LeafText text) :
    HasTokens PassesOver text := by
  cases written with
  | word listed => exact ⟨[.word], yields_word listed, .of_leaf fun _ => rfl⟩
  | number written =>
      obtain ⟨natural, yields⟩ := written.exists_yields
      exact ⟨_, yields, .of_leaf fun _ => rfl⟩
  | text written => exact ⟨_, yields_quotedText written, .of_leaf fun _ => rfl⟩

theorem hasTokens_name
    {text : List Char}
    (written : ∃ pieces, QuotedText pieces text) :
    HasTokens (fun tokens => ∃ name, tokens = [.text name]) text := by
  obtain ⟨pieces, quoted⟩ := written
  exact ⟨_, yields_quotedText quoted, _, rfl⟩

/-- Every well-formed value is passed over, however deep its brackets are. -/
theorem ValueText.hasTokens
    {depth : Nat}
    {text : List Char}
    (written : ValueText depth text) :
    HasTokens PassesOver text := by
  induction depth generalizing text with
  | zero => exact LeafText.hasTokens written
  | succ depth inductionHypothesis =>
      rcases written with leaf | ⟨items, array⟩ | ⟨members, object⟩
      · exact leaf.hasTokens
      · have each : ∀ (_ : Unit) text, ValueText depth text → HasTokens (IsItem .array) text :=
          fun _ _ written => (inductionHypothesis written).imp fun _ => PassesOver.isItem
        obtain ⟨tokens, yields, bracketed⟩ := array.hasTokens each
        exact ⟨tokens, yields, Bracketed.passesOver .array bracketed⟩
      · have each : ∀ (_ : Unit) text,
            NamedText (fun name => ∃ pieces, QuotedText pieces name) (ValueText depth) text →
              HasTokens (IsItem .object) text := by
          intro _ text written
          obtain ⟨first, last, yields, ⟨name, rfl⟩, passesOver⟩ :=
            written.hasTokens (fun _ => hasTokens_name) fun _ => inductionHypothesis
          exact ⟨_, yields, passesOver.isItem_named name⟩
        obtain ⟨tokens, yields, bracketed⟩ := object.hasTokens each
        exact ⟨tokens, yields, Bracketed.passesOver .object bracketed⟩

end NetworkConsole.Json
