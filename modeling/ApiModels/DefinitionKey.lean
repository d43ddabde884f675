import ApiModels.Text.Words
import ApiModels.Version

/-!
# Names in a schema document

A definition key such as `io.k8s.api.core.v1.Pod` holds group, version and simple name. An operation
id such as `createCoreV1NamespacedPod` holds group and version too, written as one capitalized
infix after the verb; without it the id names what the operation does.
-/

namespace ApiModels

/-- The version of definitions whose key holds none. -/
def unversioned : String := "unversioned"

/-- Group, version and simple name of a definition. -/
structure KeyParts where
  group : Option String
  version : String
  name : String
deriving DecidableEq, Repr

/-- The last version in a list of segments given backwards, with the segment before it. -/
def lastVersion? : List String → Option (Option String × String)
  | [] => none
  | s :: before => if isVersion s then some (before.head?, s) else lastVersion? before

/-- Takes a definition key apart. The name is what follows the last dot, the version the last
segment before it that is one, and the group the segment before that. Without a version the group
is the segment before the name. -/
def splitDefinitionKey (key : String) : KeyParts :=
  match (Text.split '.' key).reverse with
  | [] => ⟨none, unversioned, key⟩
  | name :: before =>
    match lastVersion? before with
    | some (group, version) => ⟨group, version, name⟩
    | none => ⟨before.head?, unversioned, name⟩

/-- First label of a group as served, which is how definition keys name it: the empty group is
`core`, `events.k8s.io` is `events`. -/
def shortGroup (apiGroup : String) : String :=
  if apiGroup.isEmpty then "core" else ((Text.split '.' apiGroup).head?).getD apiGroup

/-- The infixes that can stand for a group and version in an operation id, the preferred one
first. -/
def groupVersionInfixes (apiGroup version : String) : List String :=
  let v := Text.pascalCase version
  if apiGroup.isEmpty then ["Core" ++ v]
  else
    [Text.pascalCase apiGroup ++ v]
      ++ ((Text.dropEnd? ".k8s.io" apiGroup).map fun g => Text.pascalCase g ++ v).toList
      ++ [Text.pascalCase (shortGroup apiGroup) ++ v]

/-- Whether a text is empty or goes on with an ASCII capital. -/
def startsWord : List Char → Bool
  | [] => true
  | c :: _ => c.isUpper

/-- What is left of the text when an infix that ends at a word is taken off its start. -/
def dropInfix? (infixText text : List Char) : Option (List Char) :=
  (Text.afterStart? infixText text).filter startsWord

/-- The operation id without the infix for its group and version. The infix is looked for where the
first ASCII capital stands; an id that does not have it there stays as it is. -/
def stripGroupVersion (operationId : String) (apiGroup : Option String) (version : String) :
    String :=
  match apiGroup with
  | none => operationId
  | some group =>
    let id := operationId.toList
    let verb := id.takeWhile fun c => !c.isUpper
    let rest := id.dropWhile fun c => !c.isUpper
    if rest.isEmpty then operationId
    else
      match (groupVersionInfixes group version).findSome? fun i => dropInfix? i.toList rest with
      | some tail => String.ofList (verb ++ tail)
      | none => operationId

end ApiModels
