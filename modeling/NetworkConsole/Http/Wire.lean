import NetworkConsole.Http.Exchange

/-!
# Messages on the wire

A request is written with its headers in front of its text. A response is a head of lines,
an empty line and a body; the body's extent is given by its chunks, by its length, or by
the end of the connection.
-/

namespace NetworkConsole.Http

/-- The end of a line on the wire. -/
def lineEnd : String := "\r\n"

/-- The host and port that a request names. -/
def Endpoint.authority (endpoint : Endpoint) : String :=
  endpoint.host ++ ":" ++ toString endpoint.port

/-- The header lines of a request. -/
def Message.headers (message : Message) (endpoint : Endpoint) : List (String × String) :=
  [("host", endpoint.authority), ("accept", "*/*"), ("cache-control", cacheDirective),
    ("pragma", cacheDirective), ("connection", "close")] ++
  (match message.contentType with
    | none => []
    | some type =>
        [("content-type", type), ("content-length", toString message.body.utf8ByteSize)])

/-- A request as it is sent to an endpoint. -/
def Message.wireText (message : Message) (endpoint : Endpoint) : String :=
  message.method.name ++ " " ++ endpoint.target ++ " HTTP/1.1" ++ lineEnd ++
    String.join ((message.headers endpoint).map fun header =>
      header.1 ++ ": " ++ header.2 ++ lineEnd) ++
    lineEnd ++ message.body

/-- Bytes as text, each byte one character. -/
def byteText (bytes : List UInt8) : String :=
  String.ofList (bytes.map fun byte => Char.ofNat byte.toNat)

/-- The first line of a response without its end, and the bytes after it. -/
def firstLine (bytes : List UInt8) : String × List UInt8 :=
  let line := byteText (bytes.takeWhile (· ≠ 10))
  (String.ofList (line.toList.filter (· ≠ '\r')), (bytes.dropWhile (· ≠ 10)).tail)

/-- The lines up to an empty one, and the bytes after that. At most `count` lines are read. -/
def headLines : (count : Nat) → List UInt8 → List String × List UInt8
  | 0, bytes => ([], bytes)
  | count + 1, bytes =>
      let (line, rest) := firstLine bytes
      if line = "" then ([], rest)
      else
        let (lines, body) := headLines count rest
        (line :: lines, body)

/-- The value of a header, with its name in lower case. -/
def headerValue? (name : String) (lines : List String) : Option String :=
  lines.findSome? fun line =>
    let text := line.toList
    let key := (text.takeWhile (· ≠ ':')).map Char.toLower
    if String.ofList key = name then
      some (String.ofList (Text.trim ((text.dropWhile (· ≠ ':')).tail)))
    else none

/-- The status code of a status line. -/
def statusCode? (line : String) : Option Nat :=
  let code := ((line.toList.dropWhile (· ≠ ' ')).tail).takeWhile (· ≠ ' ')
  if code ≠ [] ∧ code.all Char.isDigit then some (Number.digitsValue code) else none

/-- The value of a hexadecimal digit. -/
def hexValue? (digit : Char) : Option Nat :=
  let lower := digit.toLower
  if lower.isDigit then some (lower.toNat - '0'.toNat)
  else if 'a' ≤ lower ∧ lower ≤ 'f' then some (lower.toNat - 'a'.toNat + 10)
  else none

/-- The length that a chunk's line starts with. -/
def chunkLength? (line : String) : Option Nat :=
  let digits := (line.toList.takeWhile fun c => (hexValue? c).isSome).filterMap hexValue?
  if digits = [] then none else some (digits.foldl (fun value digit => 16 * value + digit) 0)

/-- The contents of the chunks of a body, of at most `count` chunks. -/
def joinChunks? : (count : Nat) → List UInt8 → Option (List UInt8)
  | 0, _ => none
  | count + 1, bytes =>
      let (line, rest) := firstLine bytes
      match chunkLength? line with
      | none => none
      | some 0 => some []
      | some length =>
          if rest.length < length then none
          else
            (joinChunks? count (firstLine (rest.drop length)).2).map (rest.take length ++ ·)

/-- The body of a response with given header lines. -/
def bodyBytes? (lines : List String) (bytes : List UInt8) : Option (List UInt8) :=
  match headerValue? "transfer-encoding" lines, headerValue? "content-length" lines with
  | some _, _ => joinChunks? (bytes.length + 1) bytes
  | none, none => some bytes
  | none, some length =>
      if length.toList.all Char.isDigit ∧ Number.digitsValue length.toList ≤ bytes.length then
        some (bytes.take (Number.digitsValue length.toList))
      else none

/-- Text in UTF-8; where it is malformed, every byte beyond ASCII is replaced. -/
def decodeText (bytes : List UInt8) : String :=
  match String.fromUTF8? ⟨bytes.toArray⟩ with
  | some text => text
  | none =>
      String.ofList (bytes.map fun byte =>
        if byte < 128 then Char.ofNat byte.toNat else '\ufffd')

/-- The response that all the bytes of a connection make up. -/
def Response.ofBytes? (bytes : List UInt8) : Option Response :=
  let (lines, rest) := headLines (bytes.length + 1) bytes
  match lines with
  | [] => none
  | line :: headers =>
      match statusCode? line with
      | none => none
      | some status =>
          if isBodiless status then some ⟨status, ""⟩
          else (bodyBytes? headers rest).map fun body => ⟨status, decodeText body⟩

end NetworkConsole.Http
