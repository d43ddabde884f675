/-!
# Addresses

An address is a path on a server that the sender knows, the name of a server, or both behind a
scheme. It keeps its query and loses its fragment.
-/

namespace ApiModels.Http

/-- Why a text is no address. -/
inductive AddressFault where
  | empty
  | badCharacter
  | badServer
  | badFormat
  | schemeTooLong
  | tooLong
deriving DecidableEq, Repr

/-- A fault in words. -/
def AddressFault.text : AddressFault → String
  | empty => "empty string"
  | badCharacter => "invalid uri character"
  | badServer => "invalid authority"
  | badFormat => "invalid format"
  | schemeTooLong => "scheme too long"
  | tooLong => "uri too long"

/-! ## Paths -/

/-- Whether a path may hold a character. -/
def isPathChar (c : Char) : Bool :=
  32 < c.toNat && c.toNat ≠ 127 && !(['<', '>', '\x60'].contains c)

/-- Whether a query may hold a character. -/
def isQueryChar (c : Char) : Bool :=
  32 < c.toNat && c.toNat ≠ 127 && !(['"', '<', '>'].contains c)

/-- A text up to the mark of a fragment. -/
def beforeFragment (cs : List Char) : List Char := cs.takeWhile (· ≠ '#')

/-- A path and what may follow it, without a fragment. -/
def pathAndQuery (cs : List Char) : Except AddressFault (List Char) :=
  let kept := beforeFragment cs
  let path := kept.takeWhile (· ≠ '?')
  let query := kept.dropWhile (· ≠ '?')
  if path.all isPathChar && query.all isQueryChar then .ok kept else .error .badCharacter

/-- A path with its leading slash. -/
def rooted : List Char → List Char
  | '/' :: cs => '/' :: cs
  | cs => '/' :: cs

/-! ## Servers -/

/-- Whether the name of a server may hold a character. -/
def isServerChar (c : Char) : Bool :=
  32 < c.toNat && c.toNat < 127 && !"\"%<>\\^\x60\x7b|\x7d".toList.contains c

/-- Colons that a server's name may hold before a bracket closes or an at sign follows. -/
def mostColons : Nat := 8

/-- What has been seen of a server's name. Colons and percent signs count from the last at sign or
closing bracket on: before an at sign they belong to a user, before a bracket to a number. -/
structure ServerScan where
  colons : Nat := 0
  percent : Bool := false
  opened : Bool := false
  closed : Bool := false
  last : Option Char := none
deriving DecidableEq, Repr

namespace ServerScan

/-- One more character seen. -/
def step (s : ServerScan) (c : Char) : Except AddressFault ServerScan :=
  let s := { s with last := some c }
  match c with
  | ':' =>
    if s.colons < mostColons then .ok { s with colons := s.colons + 1 } else .error .badServer
  | '[' => if s.percent || s.opened then .error .badServer else .ok { s with opened := true }
  | ']' =>
    if !s.opened || s.closed then .error .badServer
    else .ok { s with closed := true, colons := 0, percent := false }
  | '@' => .ok { s with colons := 0, percent := false }
  | '%' => .ok { s with percent := true }
  | _ => if isServerChar c then .ok s else .error .badCharacter

/-- Whether the name may end here: its brackets are closed, one colon at most stands before a port,
and something follows a user. -/
def mayEnd (s : ServerScan) : Bool :=
  s.opened == s.closed && s.colons ≤ 1 && s.last != some '@' && !s.percent

end ServerScan

/-- An address without a scheme up to where the name of its server ends. -/
def beforePath (cs : List Char) : List Char := cs.takeWhile fun c => !(['/', '?', '#'].contains c)

/-- Refuses what is not the name of a server. -/
def checkServer (cs : List Char) : Except AddressFault Unit := do
  let seen ← cs.foldlM ServerScan.step {}
  if !seen.mayEnd then throw .badServer

/-! ## Schemes -/

/-- Whether a scheme may hold a character. -/
def isSchemeChar (c : Char) : Bool := c.isAlphanum || ['+', '-', '.', '~'].contains c

/-- Characters that a scheme may have at most. -/
def longestScheme : Nat := 64

/-- Schemes that are known in whatever case they are written. -/
def knownSchemes : List String := ["http", "https"]

/-- A scheme as it is kept: a known one in lower case. -/
def keptScheme (cs : List Char) : String :=
  let lower := String.ofList (cs.map Char.toLower)
  if knownSchemes.contains lower then lower else String.ofList cs

/-- The scheme of an address, if it has one, and what follows the slashes behind it. -/
def splitScheme? (cs : List Char) : Except AddressFault (Option (String × List Char)) :=
  let scheme := cs.takeWhile isSchemeChar
  match cs.drop scheme.length with
  | ':' :: '/' :: '/' :: rest =>
    if longestScheme < scheme.length then .error .schemeTooLong
    else .ok (some (keptScheme scheme, rest))
  | _ => .ok none

/-! ## Addresses -/

/-- Bytes that an address may have at most. -/
def longestAddress : Nat := 65534

/-- The address of a server and perhaps a path on it, behind a scheme. A scheme alone leaves an
empty text to read, which differs from one with a path and no server. -/
def absoluteAddress (scheme : String) (cs : List Char) : Except AddressFault String := do
  if cs.isEmpty then throw .empty
  let server := beforePath cs
  checkServer server
  if server.isEmpty then throw .badFormat
  let path ← pathAndQuery (cs.drop server.length)
  return scheme ++ "://" ++ String.ofList (server ++ rooted path)

/-- The address of a server and nothing else. -/
def serverAddress (cs : List Char) : Except AddressFault String := do
  let server := beforePath cs
  checkServer server
  if server.length < cs.length then
    throw (if cs.length = 1 then .badCharacter else .badFormat)
  return String.ofList cs

/-- An address as a request carries it. The star stands for a server as a whole. -/
def address (s : String) : Except AddressFault String :=
  if longestAddress < s.utf8ByteSize then .error .tooLong
  else
    match s.toList with
    | [] => .error .empty
    | ['*'] => .ok s
    | '/' :: cs => (pathAndQuery ('/' :: cs)).map String.ofList
    | cs => do
      match ← splitScheme? cs with
      | some (scheme, rest) => absoluteAddress scheme rest
      | none => serverAddress cs

end ApiModels.Http
