import NetworkConsole.Http.Percent

/-!
# Endpoints

An endpoint is a path below the backend's address. Its text is read as a web address:
tabs and line breaks are dropped, a backslash is a slash, and the dot segments of the path
are resolved. The fragment is not sent.
-/

namespace NetworkConsole.Http

/-- Where a request is sent, and the target that it names there. -/
structure Endpoint where
  isSecure : Bool
  host : String
  port : Nat
  target : String
  deriving DecidableEq, Repr

/-- The characters that a path keeps. -/
def isKeptInPath (character : Char) : Bool :=
  ' ' < character ∧ character < '\x7f' ∧
    character ∉ ['"', '#', '<', '>', '?', '\x60', '\x7b', '\x7d']

/-- The characters that a query keeps. -/
def isKeptInQuery (character : Char) : Bool :=
  ' ' < character ∧ character < '\x7f' ∧ character ∉ ['"', '#', '\'', '<', '>']

/-- Whether a character ends a host or a segment of a path. -/
def isSlash (character : Char) : Bool := character = '/' ∨ character = '\\'

/-- The pieces of a path between slashes. -/
def splitSegments : List Char → List (List Char)
  | [] => [[]]
  | character :: rest =>
      match isSlash character, splitSegments rest with
      | true, segments => [] :: segments
      | false, [] => [[character]]
      | false, segment :: segments => (character :: segment) :: segments

/-- A segment that stands for its own folder. -/
def isSingleDot (segment : List Char) : Bool :=
  String.ofList (segment.map Char.toLower) ∈ [".", "%2e"]

/-- A segment that stands for the folder above. -/
def isDoubleDot (segment : List Char) : Bool :=
  String.ofList (segment.map Char.toLower) ∈ ["..", ".%2e", "%2e.", "%2e%2e"]

/-- Resolve the dot segments of a path below the folders in `above`, the innermost first. A
path that ends with a dot segment ends with a slash. -/
def resolveSegments (above : List (List Char)) : List (List Char) → List (List Char)
  | [] => above.reverse
  | segment :: rest =>
      let folders := if isDoubleDot segment then above.tail else above
      if isDoubleDot segment ∨ isSingleDot segment then
        if rest.isEmpty then ([] :: folders).reverse else resolveSegments folders rest
      else resolveSegments (segment :: folders) rest

/-- The path of a target; a slash at its start is the root. -/
def pathText (path : List Char) : List Char :=
  let segments := splitSegments (if path.head?.any isSlash then path.tail else path)
  '/' :: ['/'].intercalate ((resolveSegments [] segments).map (percentEncode isKeptInPath))

/-- The query of a target with its question mark, if it has one. -/
def queryText : List Char → List Char
  | [] => []
  | mark :: query => mark :: percentEncode isKeptInQuery query

/-- The target that a request names: a path and a query. -/
def targetText (text : List Char) : String :=
  let sent := text.takeWhile (· ≠ '#')
  String.ofList (pathText (sent.takeWhile (· ≠ '?')) ++ queryText (sent.dropWhile (· ≠ '?')))

/-- Whether a character ends the host and the port. -/
def endsAuthority (character : Char) : Bool :=
  isSlash character ∨ character = '?' ∨ character = '#'

/-- The text after its last at sign. -/
def afterAt (text : List Char) : List Char := (text.reverse.takeWhile (· ≠ '@')).reverse

/-- The text before its last colon outside brackets, and the text after that colon. -/
def splitPort (text : List Char) : List Char × List Char :=
  let reversed := text.reverse
  match reversed.dropWhile (fun character => character ≠ ':' ∧ character ≠ ']') with
  | ':' :: host => (host.reverse, (reversed.takeWhile (· ≠ ':')).reverse)
  | _ => (text, [])

/-- A port; without digits it is the scheme's own. -/
def readPort? (isSecure : Bool) (digits : List Char) : Option Nat :=
  if digits = [] then some (if isSecure then 443 else 80)
  else if digits.all Char.isDigit ∧ Number.digitsValue digits < UInt16.size then
    some (Number.digitsValue digits)
  else none

/-- The endpoint of an address without its scheme. -/
def readEndpoint? (isSecure : Bool) (text : List Char) : Option Endpoint :=
  let authority := text.takeWhile fun character => !endsAuthority character
  let (host, digits) := splitPort (afterAt authority)
  match readPort? isSecure digits with
  | some port =>
      if host = [] then none
      else some ⟨isSecure, String.ofList host, port, targetText (text.drop authority.length)⟩
  | none => none

/-- Whether a character is dropped from an address. -/
def isDropped (character : Char) : Bool := character ∈ ['\t', '\n', '\r']

/-- Text without the slashes at its end. -/
def trimSlashes (text : List Char) : List Char := (text.reverse.dropWhile (· = '/')).reverse

/-- The endpoint at a path below the backend's address. -/
def Endpoint.below? (address path : String) : Option Endpoint :=
  let text := (trimSlashes address.toList ++ path.toList).filter (!isDropped ·)
  if "http://".toList.isPrefixOf text then readEndpoint? false (text.drop 7)
  else if "https://".toList.isPrefixOf text then readEndpoint? true (text.drop 8)
  else none

end NetworkConsole.Http
