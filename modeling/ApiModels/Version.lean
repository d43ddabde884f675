import ApiModels.Text.Pieces

/-!
# API versions

A version is `v`, a number, and for one that is not yet stable `alpha` or `beta` with a number of
its own: `v1`, `v2beta1`, `v1alpha3`. An api version puts the group before it: `batch/v1`.
-/

namespace ApiModels

/-- One or more decimal digits. -/
def isNumeral (cs : List Char) : Bool := !cs.isEmpty && cs.all Char.isDigit

/-- Nothing, or `alpha` or `beta` and a numeral. -/
def isStage (cs : List Char) : Bool :=
  cs.isEmpty ||
    match (Text.afterStart? "alpha".toList cs).or (Text.afterStart? "beta".toList cs) with
    | some n => isNumeral n
    | none => false

/-- Whether a text is a version. -/
def isVersion (s : String) : Bool :=
  match s.toList with
  | 'v' :: rest => isNumeral (rest.takeWhile Char.isDigit) && isStage (rest.dropWhile Char.isDigit)
  | _ => false

/-- Whether a text is a stable version, a `v` and a number. -/
def isStableVersion (s : String) : Bool :=
  match s.toList with
  | 'v' :: rest => isNumeral rest
  | _ => false

/-- Group and version of an api version. The core group, which is written without, is empty. -/
def splitApiVersion (apiVersion : String) : String × String :=
  (Text.splitLast? '/' apiVersion).getD ("", apiVersion)

/-- The api version of a group and version. -/
def joinApiVersion (group version : String) : String :=
  if group.isEmpty then version else group ++ "/" ++ version

end ApiModels
