import Mathlib.Data.List.Induction
import Mathlib.Tactic.SplitIfs
import NetworkConsole.Node.Selection
import NetworkConsole.Proofs.Json.Structure
import NetworkConsole.Proofs.Text.Blank

/-!
# Reading node catalogs

A list of keys with their nodes can be written as a JSON text in many ways. Every one of
them is read back, and each key leads to the nodes of its last entry.
-/

namespace NetworkConsole
namespace Catalog

open Json

/-! ## Spellings -/

section Spellings

variable (number : UInt16 → List Char → Prop)

/-- The spellings of a port: a number in one of the given spellings, or a string of its
digits with blanks around them. -/
inductive PortText (port : UInt16) : List Char → Prop
  | number
      {text : List Char}
      (written : number port text) :
      PortText port text
  | digits
      {before digits after text : List Char}
      (blankBefore : ∀ character ∈ before, Text.isBlank character = true)
      (isDigits : IsDigits digits)
      (value : Number.digitsValue digits = port.toNat)
      (blankAfter : ∀ character ∈ after, Text.isBlank character = true)
      (written : StringText (String.ofList (before ++ digits ++ after)) text) :
      PortText port text

/-- The spellings of a member of a node object. A member under another name has any
well-formed value. -/
inductive MemberText : Member → List Char → Prop
  | name
      {value : String}
      {text : List Char}
      (written : NamedText (StringText "name") (StringText value) text) :
      MemberText (.name value) text
  | isdas
      {value : String}
      {text : List Char}
      (written : NamedText (StringText "isdas") (StringText value) text) :
      MemberText (.isdas value) text
  | addr
      {value : String}
      {text : List Char}
      (written : NamedText (StringText "addr") (StringText value) text) :
      MemberText (.addr value) text
  | port
      {port : UInt16}
      {text : List Char}
      (written : NamedText (StringText "port") (PortText number port) text) :
      MemberText (.port port) text
  | other
      {key : String}
      {text : List Char}
      (unknown : key ∉ ["name", "isdas", "addr", "port"])
      (written : NamedText (StringText key) IsValue text) :
      MemberText .other text

/-- The four members of a node and a number of others. -/
def membersOf (node : Node) (others : Nat) : List Member :=
  [.name node.name, .isdas node.isdas, .addr node.addr, .port node.port] ++
    List.replicate others .other

/-- The spellings of a node: an object of its members in any order. -/
def NodeText (node : Node) (text : List Char) : Prop :=
  ∃ members others, members.Perm (membersOf node others) ∧
    ObjectText (MemberText number) members text

/-- The spellings of a key with its nodes. -/
def EntryText (entry : String × List Node) : List Char → Prop :=
  NamedText (StringText entry.1) (ArrayText (NodeText number) entry.2)

/-- The spellings of a list of entries. -/
def CatalogText : List (String × List Node) → List Char → Prop :=
  Padded (ObjectText (EntryText number))

end Spellings

/-- The spellings of a port as a number without a sign, a point and an exponent. -/
def PlainPort (port : UInt16) : List Char → Prop := NaturalText port.toNat

/-! ## Texts and ports -/

theorem reads_readText (content : String) :
    Reads readText content [.text (some content.toList)] := by
  intro rest
  change some (String.ofList content.toList, rest) = some (content, rest)
  rw [String.ofList_toList]

theorem PortText.hasTokens
    {port : UInt16}
    {text : List Char}
    (written : PortText PlainPort port text) :
    HasTokens (Reads readPort port) text := by
  have small : port.toNat < portLimit := port.toNat_lt
  cases written with
  | number written =>
      refine ⟨_, yields_naturalText written, fun rest => ?_⟩
      refine (if_pos small).trans ?_
      rw [UInt16.ofNat_toNat]
      rfl
  | @digits before digits after text blankBefore isDigits value blankAfter written =>
      refine ⟨_, yields_stringText written, fun rest => ?_⟩
      have trimmed := Text.trim_of_blanks blankBefore isDigits.1
        (fun digit member => Text.isBlank_eq_false_of_isDigit (isDigits.2 digit member)) blankAfter
      have read := Number.readNat_of_digits isDigits.1 isDigits.2 (value.trans_lt small)
      rw [String.toList_ofList]
      dsimp only [readPort, List.cons_append, List.nil_append]
      rw [trimmed, read, value]
      dsimp only
      rw [UInt16.ofNat_toNat]

/-! ## Members -/

theorem reads_readMember
    {key : String}
    {member : Member}
    {tokens : List Token}
    (reads : Reads (readMemberValue key) member tokens) :
    Reads readMember member (.text (some key.toList) :: .colon :: tokens) := by
  intro rest
  change readMemberValue (String.ofList key.toList) (tokens ++ rest) = _
  rw [String.ofList_toList, reads rest]

theorem reads_readAs
    {α : Type}
    {reader : Reader α}
    {value : α}
    {tokens : List Token}
    (reads : Reads reader value tokens)
    (wrap : α → Member) :
    Reads (readAs reader wrap) (wrap value) tokens := by
  intro rest
  rw [readAs, reads rest, Option.map_some]

theorem reads_other
    {key : String}
    {tokens : List Token}
    (unknown : key ∉ ["name", "isdas", "addr", "port"])
    (passesOver : PassesOver tokens) :
    Reads (readMemberValue key) .other tokens := by
  intro rest
  simp only [List.mem_cons, List.not_mem_nil, or_false, not_or] at unknown
  unfold readMemberValue
  split
  · exact absurd rfl unknown.1
  · exact absurd rfl unknown.2.1
  · exact absurd rfl unknown.2.2.1
  · exact absurd rfl unknown.2.2.2
  · dsimp only
    rw [passesOver.skipValue_eq, Option.map_some]

theorem hasTokens_key
    {key : String}
    {text : List Char}
    (written : StringText key text) :
    HasTokens (· = [.text (some key.toList)]) text :=
  ⟨_, yields_stringText written, rfl⟩

theorem hasTokens_member
    {key : String}
    {value : List Char → Prop}
    {member : Member}
    {text : List Char}
    (each : ∀ text, value text → HasTokens (Reads (readMemberValue key) member) text)
    (written : NamedText (StringText key) value text) :
    HasTokens (Reads readMember member) text := by
  obtain ⟨first, last, yields, rfl, reads⟩ :=
    written.hasTokens (fun _ => hasTokens_key) each
  exact ⟨_, yields, reads_readMember reads⟩

theorem MemberText.hasTokens
    {member : Member}
    {text : List Char}
    (written : MemberText PlainPort member text) :
    HasTokens (Reads readMember member) text := by
  have eachText : ∀ (value : String) (wrap : String → Member) text, StringText value text →
      HasTokens (Reads (readAs readText wrap) (wrap value)) text :=
    fun value wrap text written =>
      ⟨_, yields_stringText written, reads_readAs (reads_readText value) wrap⟩
  cases written with
  | name written => exact hasTokens_member (eachText _ .name) written
  | isdas written => exact hasTokens_member (eachText _ .isdas) written
  | addr written => exact hasTokens_member (eachText _ .addr) written
  | port written =>
      refine hasTokens_member (fun text written => ?_) written
      exact (PortText.hasTokens written).imp fun _ reads => reads_readAs reads .port
  | other unknown written =>
      refine hasTokens_member (fun text written => ?_) written
      obtain ⟨depth, written⟩ := written
      exact written.hasTokens.imp fun _ => reads_other unknown

/-! ## Nodes -/

theorem only?_of_perm
    {α : Type}
    {members canonical : List Member}
    {select : Member → Option α}
    {value : α}
    (perm : members.Perm canonical)
    (selected : canonical.filterMap select = [value]) :
    only? (members.filterMap select) = some value := by
  have single := perm.filterMap select
  rw [selected] at single
  rw [List.perm_singleton.mp single]
  rfl

/-- The members of a node give the node in any order. -/
theorem nodeOf?_of_perm
    {node : Node}
    {members : List Member}
    {others : Nat}
    (perm : members.Perm (membersOf node others)) :
    nodeOf? members = some node := by
  have noOther : ∀ {α : Type} (select : Member → Option α), select .other = none →
      (List.replicate others Member.other).filterMap select = [] := by
    intro α select ignored
    exact List.filterMap_eq_nil_iff.mpr fun member isOther =>
      List.eq_of_mem_replicate isOther ▸ ignored
  unfold nodeOf?
  rw [@only?_of_perm _ _ _ _ node.name perm, @only?_of_perm _ _ _ _ node.isdas perm,
    @only?_of_perm _ _ _ _ node.addr perm, @only?_of_perm _ _ _ _ node.port perm]
  · rfl
  all_goals
    rw [membersOf, List.filterMap_append, noOther _ rfl]
    rfl

theorem NodeText.hasTokens
    {node : Node}
    {text : List Char}
    (written : NodeText PlainPort node text) :
    HasTokens (Reads readNode node) text := by
  obtain ⟨members, others, perm, object⟩ := written
  obtain ⟨tokens, yields, bracketed⟩ :=
    object.hasTokens fun _ _ written => MemberText.hasTokens written
  obtain ⟨inside, rfl, reads⟩ := bracketed.reads_items (by decide) fun _ => rfl
  refine ⟨_, yields, fun rest => ?_⟩
  rw [List.cons_append, readNode, reads rest]
  dsimp only [Option.bind_eq_bind, Option.bind_some]
  rw [nodeOf?_of_perm perm]
  rfl

/-! ## Catalogs -/

theorem EntryText.hasTokens
    {entry : String × List Node}
    {text : List Char}
    (written : EntryText PlainPort entry text) :
    HasTokens (Reads readEntry entry) text := by
  have eachList : ∀ text, ArrayText (NodeText PlainPort) entry.2 text →
      HasTokens (ArrayTokens (Reads readNode) entry.2) text :=
    fun text array => array.hasTokens fun _ _ written => NodeText.hasTokens written
  obtain ⟨first, last, yields, rfl, bracketed⟩ :=
    NamedText.hasTokens (fun _ => hasTokens_key) eachList written
  obtain ⟨inside, rfl, reads⟩ := bracketed.reads_items (by decide) fun _ => rfl
  refine ⟨_, yields, fun rest => ?_⟩
  change (items readNode .closeArray (inside ++ rest)).map _ = _
  rw [reads rest, Option.map_some, String.ofList_toList]

/-- Every spelling of a list of entries is read back. -/
theorem ofJson?_of_catalogText
    {entries : List (String × List Node)}
    {json : String}
    (written : CatalogText PlainPort entries json.toList) :
    ofJson? json = some ⟨entries⟩ := by
  have eachObject : ∀ text, ObjectText (EntryText PlainPort) entries text →
      HasTokens (ObjectTokens (Reads readEntry) entries) text :=
    fun text object => object.hasTokens fun _ _ written => EntryText.hasTokens written
  obtain ⟨tokens, yields, bracketed⟩ := written.hasTokens eachObject
  obtain ⟨inside, rfl, reads⟩ := bracketed.reads_items (by decide) fun _ => rfl
  have read := reads []
  rw [List.append_nil] at read
  rw [ofJson?, yields.tokens?_eq, Option.bind_some, ofTokens?, read]

/-- A key leads to the nodes of its last entry. -/
theorem nodes?_eq (catalog : Catalog) (key : String) :
    catalog.nodes? key =
      ((catalog.entries.filter fun entry => entry.1 = key).getLast?).map Prod.snd := by
  obtain ⟨entries⟩ := catalog
  unfold nodes?
  induction entries using List.reverseRecOn with
  | nil => rfl
  | append_singleton entries entry inductionHypothesis =>
      dsimp only at inductionHypothesis ⊢
      rw [List.foldl_concat, inductionHypothesis, List.filter_append]
      split_ifs with same
      · simp [same]
      · simp [same]

/-- A list of keys with their nodes, written in any way with the ports as plain numbers or
as strings, is read back. Each key leads to the nodes of its last entry, in their order,
and every other key to nothing. -/
theorem nodes_of_catalogText
    {entries : List (String × List Node)}
    {json : String}
    (written : CatalogText PlainPort entries json.toList) :
    ∃ catalog, (∀ remark, Catalog.read remark json = .ok catalog) ∧
      ∀ key, catalog.nodes? key =
        ((entries.filter fun entry => entry.1 = key).getLast?).map Prod.snd := by
  refine ⟨⟨entries⟩, fun remark => ?_, fun key => nodes?_eq ⟨entries⟩ key⟩
  rw [Catalog.read, ofJson?_of_catalogText written]

/-- A catalog with a key that is repeated in another spelling, a name that is a surrogate
pair, a member that is passed over, and a port written as a string. -/
def repeatedKey : String :=
  "\x7b \x22a\x22:[ ],\n\x22\\u0061\x22:[" ++
    "\x7b\x22port\x22:\x22 080\\t\x22,\x22x\x22:[1e999,\x7b\x7d],\x22addr\x22:\x22h\x22," ++
    "\x22name\x22:\x22\\ud83d\\uDE00\x22,\x22isdas\x22:\x221\x22\x7d," ++
    "\x7b\x22name\x22:\x22n\x22,\x22isdas\x22:\x221\x22,\x22addr\x22:\x22h\x22," ++
    "\x22port\x22:65535\x7d]\x7d"

theorem catalogText_repeatedKey :
    CatalogText PlainPort [("a", []), ("a", [⟨"😀", "1", "h", 80⟩, ⟨"n", "1", "h", 65535⟩])]
      repeatedKey.toList := by
  have space : IsSpacing [' '] := by decide
  have feed : IsSpacing ['\n'] := by decide
  have quoted : ∀ content, StringText content (quote content).toList := stringText_quote
  have escapedKey : StringText "a" _ :=
    ⟨_, .cons .codeUnit .nil, .intro (.cons (@PieceText.codeUnit 0 0 6 1 '0' '0' '6' '1'
      (by decide) (by decide) (by decide) (by decide)) .nil)⟩
  have high := @PieceText.codeUnit 13 8 3 13 'd' '8' '3' 'd'
    (by decide) (by decide) (by decide) (by decide)
  have low := @PieceText.codeUnit 13 14 0 0 'D' 'E' '0' '0'
    (by decide) (by decide) (by decide) (by decide)
  have pair : CharacterPieces '😀' [.codeUnit 0xd83d, .codeUnit 0xde00] :=
    .surrogates (by decide) (by decide) (by decide)
  have name : StringText "😀" _ :=
    ⟨_, .cons pair .nil, .intro (.cons high (.cons low .nil))⟩
  have blankBefore : ∀ character ∈ [' '], Text.isBlank character = true :=
    List.forall_mem_singleton.mpr rfl
  have blankAfter : ∀ character ∈ ['\t'], Text.isBlank character = true :=
    List.forall_mem_singleton.mpr rfl
  have portDigits : IsDigits ['0', '8', '0'] := by decide
  have portString : PortText PlainPort 80 _ :=
    .digits blankBefore portDigits rfl blankAfter (quoted _)
  have whole : IsWhole ['1'] := by decide
  have digits : IsDigits ['9', '9', '9'] := by decide
  have number := NumberText.intro .positive whole .absent (.unsigned (.inl rfl) digits)
  have unknown : IsValue _ :=
    ⟨2, .inr (.inl ⟨[(), ()], .full (.more (padded_of_part (.inl (.number number)))
      (.one (padded_of_part (.inr (.inr ⟨[], .empty isSpacing_nil⟩)))))⟩)⟩
  have first : NodeText PlainPort ⟨"😀", "1", "h", 80⟩ _ :=
    ⟨[.port 80, .other, .addr "h", .name "😀", .isdas "1"], 1, by decide,
      .full (.more (padded_of_part (.port (namedText_append (quoted _) portString)))
        (.more (padded_of_part (.other (by decide) (namedText_append (quoted "x") unknown)))
        (.more (padded_of_part (.addr (namedText_append (quoted _) (quoted _))))
        (.more (padded_of_part (.name (namedText_append (quoted _) name)))
        (.one (padded_of_part (.isdas (namedText_append (quoted _) (quoted _)))))))))⟩
  have second : NodeText PlainPort ⟨"n", "1", "h", 65535⟩ _ :=
    ⟨_, 0, .refl _,
      .full (.more (padded_of_part (.name (namedText_append (quoted _) (quoted _))))
        (.more (padded_of_part (.isdas (namedText_append (quoted _) (quoted _))))
        (.more (padded_of_part (.addr (namedText_append (quoted _) (quoted _))))
        (.one (padded_of_part (.port (namedText_append (quoted _)
          (.number (by decide : NaturalText 65535 ['6', '5', '5', '3', '5'])))))))))⟩
  have firstEntry : EntryText PlainPort ("a", []) _ := namedText_append (quoted _) (.empty space)
  have secondEntry : EntryText PlainPort ("a", [⟨"😀", "1", "h", 80⟩, ⟨"n", "1", "h", 65535⟩]) _ :=
    namedText_append escapedKey
      (.full (.more (padded_of_part first) (.one (padded_of_part second))))
  have spelled : CatalogText PlainPort _ _ :=
    padded_of_part (.full (.more (.intro space firstEntry isSpacing_nil)
      (.one (.intro feed secondEntry isSpacing_nil))))
  refine Eq.mp (congrArg _ ?_) spelled
  decide +kernel

/-- The nodes under the repeated key are those of its second entry. -/
theorem nodes_of_repeatedKey :
    ∃ catalog, (∀ remark, Catalog.read remark repeatedKey = .ok catalog) ∧
      catalog.nodes? "a" = some [⟨"😀", "1", "h", 80⟩, ⟨"n", "1", "h", 65535⟩] ∧
      catalog.nodes? "b" = none := by
  obtain ⟨catalog, read, found⟩ := nodes_of_catalogText catalogText_repeatedKey
  exact ⟨catalog, read, found "a", found "b"⟩

/-! ## Writing catalogs -/

section Writing

variable {number : UInt16 → List Char → Prop} {write : UInt16 → String}

/-- The JSON text of a node, with a given way to write its port. -/
def encodeNode (write : UInt16 → String) (node : Node) : String :=
  objectText [("name", quote node.name), ("isdas", quote node.isdas), ("addr", quote node.addr),
    ("port", write node.port)]

/-- The JSON text of a list of entries. -/
def encode (write : UInt16 → String) (entries : List (String × List Node)) : String :=
  objectText (entries.map fun entry =>
    (entry.1, "[" ++ ",".intercalate (entry.2.map (encodeNode write)) ++ "]"))

theorem nodeText_encodeNode
    {node : Node}
    (writes : number node.port (write node.port).toList) :
    NodeText number node (encodeNode write node).toList := by
  refine ⟨membersOf node 0, 0, .refl _, objectText_written ?_⟩
  exact .cons (.name (namedText_written (stringText_quote _)))
    (.cons (.isdas (namedText_written (stringText_quote _)))
    (.cons (.addr (namedText_written (stringText_quote _)))
    (.cons (.port (namedText_written (.number writes))) .nil)))

/-- The written text of a list of entries is one of its spellings. -/
theorem catalogText_encode
    {entries : List (String × List Node)}
    (writes : ∀ entry ∈ entries, ∀ node ∈ entry.2, number node.port (write node.port).toList) :
    CatalogText number entries (encode write entries).toList := by
  apply padded_of_part
  apply objectText_written
  refine List.forall₂_map_right_iff.mpr (List.forall₂_same.mpr fun entry listed => ?_)
  apply namedText_written
  apply arrayText_intercalate
  exact List.forall₂_map_right_iff.mpr
    (List.forall₂_same.mpr fun node member => nodeText_encodeNode (writes entry listed node member))

end Writing

/-! ## Ports that are refused -/

/-- The spellings of a port as any number of its value. -/
def NumericPort (port : UInt16) : List Char → Prop := NumberText port.toNat

/-- A catalog of one node whose port is written in a given way. -/
def singleNode (port : String) : String :=
  "\x7b\x22all\x22:[\x7b\x22name\x22:\x22a\x22,\x22isdas\x22:\x221-ff00_0_111\x22," ++
    "\x22addr\x22:\x22h\x22,\x22port\x22:" ++ port ++ "\x7d]\x7d"

theorem catalogText_singleNode
    {value : Rat}
    {port : UInt16}
    {spelling : String}
    (written : NumberText value spelling.toList)
    (same : value = port.toNat)
    (encoded : encode (fun _ => spelling) [("all", [⟨"a", "1-ff00_0_111", "h", port⟩])] =
      singleNode spelling) :
    CatalogText NumericPort [("all", [⟨"a", "1-ff00_0_111", "h", port⟩])]
      (singleNode spelling).toList := by
  have numeric : NumericPort port spelling.toList := by rwa [NumericPort, ← same]
  rw [← encoded]
  apply catalogText_encode
  simpa using numeric

theorem malformedCatalog_of_ofJson?
    {json : String}
    (refused : ofJson? json = none)
    (remark : String → String) :
    Catalog.read remark json = .error (.contract (.malformedCatalog (remark json))) := by
  rw [Catalog.read, refused]

/-- A number of a port's value is refused if it has an exponent, a point or a sign. -/
theorem malformedCatalog_of_numericPort :
    (CatalogText NumericPort [("all", [⟨"a", "1-ff00_0_111", "h", 100⟩])]
        (singleNode "1e2").toList ∧
      ∀ remark, Catalog.read remark (singleNode "1e2") =
        .error (.contract (.malformedCatalog (remark (singleNode "1e2"))))) ∧
    (CatalogText NumericPort [("all", [⟨"a", "1-ff00_0_111", "h", 100⟩])]
        (singleNode "100.0").toList ∧
      ∀ remark, Catalog.read remark (singleNode "100.0") =
        .error (.contract (.malformedCatalog (remark (singleNode "100.0"))))) ∧
    CatalogText NumericPort [("all", [⟨"a", "1-ff00_0_111", "h", 0⟩])]
        (singleNode "-0").toList ∧
      ∀ remark, Catalog.read remark (singleNode "-0") =
        .error (.contract (.malformedCatalog (remark (singleNode "-0")))) := by
  refine ⟨⟨?_, malformedCatalog_of_ofJson? (by decide +kernel)⟩,
    ⟨?_, malformedCatalog_of_ofJson? (by decide +kernel)⟩,
    ?_, malformedCatalog_of_ofJson? (by decide +kernel)⟩
  · have whole : IsWhole ['1'] := by decide
    have digits : IsDigits ['2'] := by decide
    exact catalogText_singleNode (.intro .positive whole .absent (.unsigned (.inl rfl) digits))
      (by decide +kernel) (by decide +kernel)
  · have whole : IsWhole ['1', '0', '0'] := by decide
    have digits : IsDigits ['0'] := by decide
    exact catalogText_singleNode (.intro .positive whole (.present digits) .absent)
      (by decide +kernel) (by decide +kernel)
  · have whole : IsWhole ['0'] := by decide
    exact catalogText_singleNode (.intro .negative whole .absent .absent)
      (by decide +kernel) (by decide +kernel)

end Catalog
end NetworkConsole
