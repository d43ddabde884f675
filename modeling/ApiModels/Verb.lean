/-!
# Verbs

The seven verbs an operation can be served under, in the order in which a path lists them.
-/

namespace ApiModels

/-- Verb of an operation. -/
inductive Verb where
  | get
  | put
  | post
  | delete
  | options
  | head
  | patch
deriving DecidableEq, Repr, Inhabited

namespace Verb

/-- Every verb, in the order in which the operations of a path are taken. -/
def all : List Verb := [.get, .put, .post, .delete, .options, .head, .patch]

/-- The verb in upper case, as sent. -/
def text : Verb → String
  | .get => "GET"
  | .put => "PUT"
  | .post => "POST"
  | .delete => "DELETE"
  | .options => "OPTIONS"
  | .head => "HEAD"
  | .patch => "PATCH"

/-- The verb as a capitalized word. -/
def title : Verb → String
  | .get => "Get"
  | .put => "Put"
  | .post => "Post"
  | .delete => "Delete"
  | .options => "Options"
  | .head => "Head"
  | .patch => "Patch"

/-- The key under which a path lists the verb's operation. -/
def key (v : Verb) : String := v.text.toLower

/-- The verb of a key. -/
def ofKey? (key : String) : Option Verb := all.find? fun v => v.key == key

end Verb

end ApiModels
