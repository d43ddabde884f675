import ApiModels.Http.Address
import ApiModels.Verb

/-!
# Requests

What goes to a server and what comes back. A text that is no address makes no request, nor does a
content type with a control character.
-/

namespace ApiModels.Http

/-- Why a text makes no part of a request. -/
inductive RequestFault where
  | address (fault : AddressFault)
  | badHeader
deriving DecidableEq, Repr

/-- A fault in words. -/
def RequestFault.text : RequestFault → String
  | address fault => fault.text
  | badHeader => "failed to parse header value"

/-- A request. -/
structure Request where
  verb : Verb
  /-- Path and query, as far as the sender knows the server. -/
  address : String
  accept : String
  contentType : Option String
  body : String
deriving DecidableEq, Repr

/-- Whether a header may hold a character. -/
def isHeaderChar (c : Char) : Bool := c = '\t' || (32 ≤ c.toNat && c.toNat ≠ 127)

/-- A header as a request carries it. -/
def header (s : String) : Except RequestFault String :=
  if s.toList.all isHeaderChar then .ok s else .error .badHeader

/-- What a server answers. -/
structure Answer where
  status : Nat
  body : List UInt8
deriving DecidableEq, Repr

end ApiModels.Http
