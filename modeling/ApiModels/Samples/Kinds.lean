import ApiModels.Registry.Kinds

/-!
# Sample markers

Markers of document types that pass, and of types that fail each check.
-/

namespace ApiModels.Samples

/-- Markers by the names of the types that carry them. -/
def markers : List (String × Markers) :=
  [ ("Good", ⟨"example.io/v1alpha1", "Good"⟩), ("GoodTwin", ⟨"example.io/v1alpha1", "Good"⟩),
    ("CoreKind", ⟨"v1", "Core"⟩), ("Nested", ⟨"a/b/v2beta10", "Nested"⟩),
    ("NoKind", ⟨"example.io/v1", ""⟩), ("NoApi", ⟨"", "NoApi"⟩), ("NoMarkers", ⟨"", ""⟩),
    ("BadVersion", ⟨"example.io/stable", "BadVersion"⟩),
    ("TrailingSlash", ⟨"example.io/", "TrailingSlash"⟩), ("HalfBeta", ⟨"v1beta", "HalfBeta"⟩),
    ("UpperCase", ⟨"example.io/V1", "UpperCase"⟩),
    ("Quoted", ⟨"say \"hi\"/é\t\\", "Quoted"⟩) ]

end ApiModels.Samples
