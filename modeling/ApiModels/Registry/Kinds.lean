import ApiModels.Text.Quoted
import ApiModels.Version

/-!
# Registered kinds

Document types that extend the generated ones are registered by their markers: an api version that
ends in a version, and a kind.
-/

namespace ApiModels

/-- The markers of a document type. -/
structure Markers where
  apiVersion : String
  kind : String
deriving DecidableEq, Repr

/-- What is wrong with the markers of a type. -/
inductive MarkerFault where
  | emptyKind
  | emptyApiVersion
  | noVersion (apiVersion : String)
deriving DecidableEq, Repr

/-- A fault in words. -/
def MarkerFault.text : MarkerFault → String
  | emptyKind => "KIND is empty"
  | emptyApiVersion => "API_VERSION is empty"
  | noVersion apiVersion => "API_VERSION " ++ Text.quoted apiVersion ++ " has no version segment"

/-- A fault of a named type in words. -/
def MarkerFault.textFor (typeName : String) (f : MarkerFault) : String :=
  typeName ++ " is not a valid document type: " ++ f.text

/-- Checks the markers of a type. -/
def Markers.check (m : Markers) : Except MarkerFault Unit :=
  if m.kind.isEmpty then .error .emptyKind
  else if m.apiVersion.isEmpty then .error .emptyApiVersion
  else if isVersion (splitApiVersion m.apiVersion).2 then .ok ()
  else .error (.noVersion m.apiVersion)

/-- Names of types by their markers, each once. -/
structure KindRegistry where
  kinds : List (Markers × String) := []
deriving DecidableEq, Repr

namespace KindRegistry

/-- A call that registers a type in place of one with the same markers, once its markers pass. -/
def registering (m : Markers) (typeName : String) :
    ExceptT MarkerFault (StateM KindRegistry) Unit := do
  m.check
  modify fun r => ⟨(m, typeName) :: r.kinds.filter fun e => e.1 ≠ m⟩

/-- The registry with a type registered, or what is wrong with its markers. -/
def register (r : KindRegistry) (m : Markers) (typeName : String) :
    Except MarkerFault KindRegistry :=
  let (answer, r) := (registering m typeName).run.run r
  answer.map fun () => r

/-- The type registered for some markers. -/
def lookup (r : KindRegistry) (m : Markers) : Option String := r.kinds.lookup m

/-- How many types are registered. -/
def size (r : KindRegistry) : Nat := r.kinds.length

end KindRegistry

end ApiModels
