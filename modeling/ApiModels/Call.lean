import ApiModels.Http.Request
import ApiModels.Json.Print
import ApiModels.Text.Percent
import ApiModels.Text.Pieces
import ApiModels.Text.Quoted

/-!
# Calls

A call describes one operation with its arguments filled in: the verb, the path, the query and
perhaps a body. A value put into the path stays within its segment, and one put into the query
within its pair. A body that cannot be written is remembered and reported when the call is sent.
-/

namespace ApiModels

/-- The content type of JSON. -/
def jsonType : String := "application/json"

/-- The content type of a partial update. -/
def mergePatchType : String := "application/merge-patch+json"

/-- Why the body of a call cannot be written. -/
structure EncodeError where
  reason : String
deriving DecidableEq, Repr

/-- The error in words. -/
def EncodeError.text (e : EncodeError) : String := "cannot encode body: " ++ e.reason

/-- An operation with its arguments filled in. -/
structure Call where
  verb : Verb
  path : String
  query : List (String × String) := []
  body : Option String := none
  contentType : Option String := none
  /-- A body that could not be written. -/
  deferred : Option EncodeError := none
deriving Repr

namespace Call

/-- The call of a path template. -/
def new (verb : Verb) (template : String) : Call := { verb, path := template }

/-- What stands for a parameter in a path. -/
def placeholder (name : String) : String := "\x7b" ++ name ++ "\x7d"

/-- Fills in a parameter of the path. -/
def pathParam (c : Call) (name value : String) : Call :=
  { c with path := Text.replace (placeholder name) (Text.encodeSegment value) c.path }

/-- Adds a pair to the query for each value. -/
def queryAll (c : Call) (name : String) (values : List String) : Call :=
  { c with query := c.query ++ values.map fun v => (name, v) }

/-- Adds a pair to the query if there is a value. -/
def queryParam (c : Call) (name : String) (value : Option String) : Call :=
  c.queryAll name value.toList

/-- The content type of a body under a verb: a patch is sent as a merge patch. -/
def bodyType (verb : Verb) : String := if verb = .patch then mergePatchType else jsonType

/-- Sets the body, if it can be written. -/
def jsonBody (c : Call) (value : Except EncodeError Json) : Call :=
  match value with
  | .ok v =>
    { c with body := some v.compact, contentType := c.contentType.or (some (bodyType c.verb)) }
  | .error e => { c with deferred := some e }

/-- Sets the content type. -/
def withContentType (c : Call) (type : String) : Call := { c with contentType := some type }

/-- The path and the encoded query. -/
def pathAndQuery (c : Call) : String :=
  if c.query.isEmpty then c.path else c.path ++ "?" ++ Text.encodePairs c.query

/-- An optional value in words. -/
def optionText (f : α → String) : Option α → String
  | some a => "Some(" ++ f a ++ ")"
  | none => "None"

/-- The call in words. The body shows its size only. -/
def text (c : Call) : String :=
  let pairs := c.query.map fun p => "(" ++ Text.quoted p.1 ++ ", " ++ Text.quoted p.2 ++ ")"
  "ApiCall \x7b verb: " ++ c.verb.title ++ ", path: " ++ Text.quoted c.path
    ++ ", query: [" ++ Text.join ", " pairs ++ "], body_len: "
    ++ optionText (fun b => toString b.utf8ByteSize) c.body ++ ", content_type: "
    ++ optionText Text.quoted c.contentType ++ " \x7d"

end Call

end ApiModels
