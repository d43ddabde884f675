import ApiModels.Call
import ApiModels.Http.Status
import ApiModels.Json.Reader
import ApiModels.Text.Utf8

/-!
# Clients

Whatever sends requests and gets answers is a client, in any monad. Sending a call builds its
request, and takes an answer that reports success as the response; its body is read only when asked
for. A scripted client gives prepared answers and keeps what it was asked.
-/

namespace ApiModels

/-- Why there is no answer. -/
inductive TransportError where
  /-- The request could not be made. -/
  | invalidRequest (fault : Http.RequestFault)
  /-- The client failed to get one. -/
  | failed (reason : String)
deriving DecidableEq, Repr

/-- The error in words. -/
def TransportError.text : TransportError → String
  | invalidRequest fault => "invalid request: " ++ fault.text
  | failed reason => reason

/-- Why a body does not give a value. -/
inductive DecodeError where
  | json
  | utf8 (fault : Text.Utf8Fault)
deriving DecidableEq, Repr

/-- The error in words. -/
def DecodeError.text : DecodeError → String
  | json => "cannot decode body"
  | utf8 fault => "Response body is not UTF-8: " ++ fault.text

/-- Why a call failed. -/
inductive ClientError where
  | transport (e : TransportError)
  | encode (e : EncodeError)
  /-- The answer does not report success. -/
  | http (status : Nat) (body : List UInt8)
deriving DecidableEq, Repr

namespace ClientError

/-- An answer that does not report success, in words. A body that is text is shown. -/
def answerText (status : Nat) (body : List UInt8) : String :=
  match Text.ofUtf8 body with
  | .ok s => if s.isEmpty then Http.statusText status else Http.statusText status ++ ": " ++ s
  | .error _ => Http.statusText status

/-- The error in words. -/
def text : ClientError → String
  | transport e => "transport failed: " ++ e.text
  | encode e => e.text
  | http status body => "API server returned " ++ answerText status body

/-- The status of the answer, if there was one. -/
def status? : ClientError → Option Nat
  | http status _ => some status
  | _ => none

/-- Whether the server says that the object exists already. -/
def isConflict (e : ClientError) : Bool := e.status? == some Http.conflict

/-- Whether the server says that there is no such object. -/
def isNotFound (e : ClientError) : Bool := e.status? == some Http.notFound

end ClientError

/-- An answer that reports success. -/
structure Response where
  status : Nat
  body : List UInt8
deriving DecidableEq, Repr

namespace Response

/-- The response that an answer is, if it reports success. -/
def ofAnswer (a : Http.Answer) : Except ClientError Response :=
  if Http.isSuccess a.status then .ok ⟨a.status, a.body⟩ else .error (.http a.status a.body)

/-- The response in words. The body shows its size only. -/
def description (r : Response) : String :=
  "Response \x7b status: " ++ toString r.status ++ ", body_len: " ++ toString r.body.length
    ++ " \x7d"

/-- The body as text. -/
def text (r : Response) : Except DecodeError String := (Text.ofUtf8 r.body).mapError .utf8

/-- The body as a value of some type. -/
def parse (r : Response) (reader : Json.Reader α) : Except DecodeError α :=
  (reader.ofBytes r.body).mapError fun _ => .json

/-- Whether a byte is blank. -/
def isBlankByte (b : UInt8) : Bool := [0x20, 0x09, 0x0a, 0x0c, 0x0d].contains b

/-- The body as it stands. A blank one is null. -/
def value (r : Response) : Except DecodeError Json :=
  if r.body.all isBlankByte then .ok .null else r.parse Json.Reader.json

end Response

/-- Whatever sends requests. -/
structure Client (m : Type → Type) where
  execute : Http.Request → m (Except String Http.Answer)

namespace Call

/-- The request of a call. -/
def request (c : Call) : Except ClientError Http.Request := do
  if let some e := c.deferred then throw (.encode e)
  let invalid (f : Http.RequestFault) : ClientError := .transport (.invalidRequest f)
  let address ← (Http.address c.pathAndQuery).mapError fun f => invalid (.address f)
  let contentType ← c.contentType.mapM fun t => (Http.header t).mapError invalid
  return { verb := c.verb, address, accept := jsonType, contentType, body := c.body.getD "" }

/-- Sends a call. -/
def send [Monad m] (client : Client m) (c : Call) : m (Except ClientError Response) :=
  match c.request with
  | .error e => pure (.error e)
  | .ok request => do
    match ← client.execute request with
    | .error reason => return .error (.transport (.failed reason))
    | .ok answer => return Response.ofAnswer answer

end Call

/-- Answers to come, and requests so far. -/
structure Script where
  answers : List (Except String Http.Answer)
  sent : List Http.Request := []

namespace Script

/-- The next answer. One whose status is none fails. -/
def next : List (Except String Http.Answer) → Except String Http.Answer
  | [] => .error "no response left"
  | .error reason :: _ => .error reason
  | .ok a :: _ => if Http.isStatus a.status then .ok a else .error "invalid status code"

/-- The client that answers from a script. -/
def client : Client (StateM Script) :=
  ⟨fun request s =>
    (next s.answers, { answers := s.answers.tail, sent := s.sent ++ [request] })⟩

end Script

end ApiModels
