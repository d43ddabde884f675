/-!
# Anomalies

A build goes on past parts of a schema it cannot use and reports them. Anomalies are kept in the
order in which they were found.
-/

namespace ApiModels

/-- What is wrong with a part of a schema. -/
inductive AnomalyKind where
  /-- A reference names a definition that does not exist. -/
  | undefinedReference
  /-- A reference names a definition that published schemas are known to leave out. -/
  | knownMissingType
  /-- A cycle that splitting cannot break. -/
  | unsupportedCycle
  /-- A reference to a type that was left out for its cycle. -/
  | dependsOnExcluded
  /-- An operation that fits no class. -/
  | unboundOperation
deriving DecidableEq, Repr, Inhabited

namespace AnomalyKind

/-- Name of a kind. -/
def text : AnomalyKind → String
  | .undefinedReference => "undefined-reference"
  | .knownMissingType => "known-missing-type"
  | .unsupportedCycle => "unsupported-cycle"
  | .dependsOnExcluded => "depends-on-excluded"
  | .unboundOperation => "unbound-operation"

/-- Every kind. -/
def all : List AnomalyKind :=
  [.undefinedReference, .knownMissingType, .unsupportedCycle, .dependsOnExcluded, .unboundOperation]

end AnomalyKind

/-- An anomaly. The subject is the name of a type, a definition key or an operation id. -/
structure Anomaly where
  kind : AnomalyKind
  version : String
  subject : String
  reason : String
deriving DecidableEq, Repr, Inhabited

/-- An anomaly on one line. -/
def Anomaly.text (a : Anomaly) : String :=
  "[" ++ a.kind.text ++ "] " ++ a.version ++ "/" ++ a.subject ++ ": " ++ a.reason

/-- Anomalies in the order in which they were found. -/
abbrev Diagnostics := List Anomaly

/-- Number of anomalies of a kind. -/
def Diagnostics.count (d : Diagnostics) (kind : AnomalyKind) : Nat :=
  d.countP fun a => a.kind = kind

end ApiModels
