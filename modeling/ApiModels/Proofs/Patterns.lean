import ApiModels.Proofs.SnakeCase
import ApiModels.Version
import Mathlib.Computability.RegularExpressions

/-!
# Texts that match a pattern

What a name has to look like is said best by a regular expression, and the characters of a text are
a word of its language or not. A version is one of

    v[0-9]+((alpha|beta)[0-9]+)?

and the check that the library makes, which goes through the text once from the left, accepts just
these.
-/

namespace ApiModels.Text

open Computability

/-- The text is in the language of the pattern. -/
def Matches (p : RegularExpression Char) (s : String) : Prop := s.toList ∈ p.matches'

instance (p : RegularExpression Char) (s : String) : Decidable (Matches p s) :=
  decidable_of_iff (p.rmatch s.toList = true) (RegularExpression.rmatch_iff_matches' p s.toList)

/-- One of the given characters. -/
def oneOf (cs : List Char) : RegularExpression Char := (cs.map .char).sum

/-- The text as it stands. -/
def exactly (s : String) : RegularExpression Char := (s.toList.map .char).prod

/-- The characters that a pattern names. -/
def namedIn : RegularExpression Char → List Char
  | .zero | .epsilon => []
  | .char c => [c]
  | .plus p q | .comp p q => namedIn p ++ namedIn q
  | .star p => namedIn p

variable {cs ds x : List Char} {p : RegularExpression Char}

theorem mem_oneOf : x ∈ (oneOf cs).matches' ↔ ∃ c ∈ cs, x = [c] := by
  induction cs with
  | nil => exact iff_of_false (Language.notMem_zero x) (by simp)
  | cons c cs ih =>
    have hcons : (oneOf (c :: cs)).matches' = {[c]} + (oneOf cs).matches' := rfl
    rw [hcons, Language.mem_add, ih, List.exists_mem_cons_iff]
    rfl

theorem mem_star_oneOf : x ∈ (oneOf cs).star.matches' ↔ ∀ c ∈ x, c ∈ cs := by
  rw [RegularExpression.matches'_star, Language.mem_kstar]
  constructor
  · rintro ⟨words, rfl, hwords⟩ c hc
    obtain ⟨word, hword, hc⟩ := List.mem_flatten.mp hc
    obtain ⟨d, hd, rfl⟩ := mem_oneOf.mp (hwords word hword)
    rwa [List.mem_singleton.mp hc]
  · intro h
    refine ⟨x.map fun c => [c], (List.flatMap_singleton' x).symm, ?_⟩
    intro word hword
    obtain ⟨c, hc, rfl⟩ := List.mem_map.mp hword
    exact mem_oneOf.mpr ⟨c, h c hc, rfl⟩

theorem mem_exactly {s : String} : x ∈ (exactly s).matches' ↔ x = s.toList := by
  unfold exactly
  induction s.toList generalizing x with
  | nil => exact Language.mem_one x
  | cons c cs ih =>
    have hcons : ((c :: cs).map RegularExpression.char).prod.matches'
        = {[c]} * (cs.map RegularExpression.char).prod.matches' := rfl
    rw [hcons, Language.mem_mul]
    constructor
    · rintro ⟨a, rfl, b, hb, rfl⟩
      rw [ih.mp hb, List.singleton_append]
    · rintro rfl
      exact ⟨[c], rfl, cs, ih.mpr rfl, rfl⟩

/-- A text holds only characters that its pattern names. -/
theorem mem_namedIn (h : x ∈ p.matches') : ∀ c ∈ x, c ∈ namedIn p := by
  induction p generalizing x with
  | zero => exact absurd h (Language.notMem_zero x)
  | epsilon =>
    rw [(Language.mem_one x).mp h]
    simp
  | char d =>
    obtain rfl : x = [d] := h
    exact fun c hc => hc
  | plus p q ihp ihq =>
    intro c hc
    rcases (Language.mem_add _ _ _).mp h with h | h
    · exact List.mem_append_left _ (ihp h c hc)
    · exact List.mem_append_right _ (ihq h c hc)
  | comp p q ihp ihq =>
    obtain ⟨a, ha, b, hb, rfl⟩ := Language.mem_mul.mp h
    intro c hc
    rcases List.mem_append.mp hc with hc | hc
    · exact List.mem_append_left _ (ihp ha c hc)
    · exact List.mem_append_right _ (ihq hb c hc)
  | star p ih =>
    obtain ⟨words, rfl, hwords⟩ := Language.mem_kstar.mp h
    intro c hc
    obtain ⟨word, hword, hc⟩ := List.mem_flatten.mp hc
    exact ih (hwords word hword) c hc

/-! ## Numbers and versions -/

/-- The decimal digits. -/
def digits : List Char := "0123456789".toList

theorem mem_digits {c : Char} : c ∈ digits ↔ c.isDigit = true := by
  constructor
  · have hall : digits.all Char.isDigit = true := by decide
    exact List.all_eq_true.mp hall c
  · intro h
    have halphanum : c.isAlphanum = true := by simp [Char.isAlphanum, h]
    exact of_isAlphanum (P := fun c => c.isDigit = true → c ∈ digits) (by decide) halphanum h

/-- `[0-9]+` -/
def numberPattern : RegularExpression Char := oneOf digits * (oneOf digits).star

/-- `((alpha|beta)[0-9]+)?` -/
def stagePattern : RegularExpression Char := 1 + (exactly "alpha" + exactly "beta") * numberPattern

/-- `v[0-9]+((alpha|beta)[0-9]+)?` -/
def versionPattern : RegularExpression Char := .char 'v' * numberPattern * stagePattern

theorem mem_numberPattern : x ∈ numberPattern.matches' ↔ isNumeral x = true := by
  have hall : isNumeral x = true ↔ x ≠ [] ∧ ∀ c ∈ x, c ∈ digits := by
    simp [isNumeral, mem_digits]
  rw [hall, numberPattern, RegularExpression.matches'_mul, Language.mem_mul]
  constructor
  · rintro ⟨a, ha, b, hb, rfl⟩
    obtain ⟨c, hc, rfl⟩ := mem_oneOf.mp ha
    exact ⟨List.cons_ne_nil c b, List.forall_mem_cons.mpr ⟨hc, mem_star_oneOf.mp hb⟩⟩
  · rintro ⟨hne, hdigits⟩
    obtain ⟨c, b, rfl⟩ := List.exists_cons_of_ne_nil hne
    obtain ⟨hc, hb⟩ := List.forall_mem_cons.mp hdigits
    exact ⟨[c], mem_oneOf.mpr ⟨c, hc, rfl⟩, b, mem_star_oneOf.mpr hb, rfl⟩

theorem mem_stagePattern : x ∈ stagePattern.matches'
    ↔ x = [] ∨ ∃ n, isNumeral n = true ∧ (x = "alpha".toList ++ n ∨ x = "beta".toList ++ n) := by
  rw [stagePattern, RegularExpression.matches'_add, Language.mem_add,
    RegularExpression.matches'_epsilon, Language.mem_one, RegularExpression.matches'_mul,
    Language.mem_mul]
  refine or_congr_right ⟨?_, ?_⟩
  · rintro ⟨word, hword, n, hn, rfl⟩
    refine ⟨n, mem_numberPattern.mp hn, ?_⟩
    exact ((Language.mem_add _ _ _).mp hword).imp (fun h => by rw [mem_exactly.mp h])
      fun h => by rw [mem_exactly.mp h]
  · rintro ⟨n, hn, hx⟩
    rcases hx with rfl | rfl
    · exact ⟨_, .inl (mem_exactly.mpr rfl), n, mem_numberPattern.mpr hn, rfl⟩
    · exact ⟨_, .inr (mem_exactly.mpr rfl), n, mem_numberPattern.mpr hn, rfl⟩

theorem isStage_iff : isStage x = true ↔ x ∈ stagePattern.matches' := by
  rw [mem_stagePattern, isStage, Bool.or_eq_true, List.isEmpty_iff]
  refine or_congr_right ⟨?_, ?_⟩
  · intro h
    split at h
    · rename_i n hn
      rcases Option.or_eq_some_iff.mp hn with hn | ⟨-, hn⟩
      · exact ⟨n, h, .inl (afterStart?_eq_some hn)⟩
      · exact ⟨n, h, .inr (afterStart?_eq_some hn)⟩
    · cases h
  · rintro ⟨n, hn, rfl | rfl⟩
    · rw [afterStart?_append_self]
      exact hn
    · -- neither word begins the other one
      have halpha : afterStart? "alpha".toList ("beta".toList ++ n) = none := rfl
      rw [halpha, afterStart?_append_self]
      exact hn

/-- A stage does not begin with a digit, so the number before it ends where it begins. -/
theorem takeWhile_isDigit_append {n stage : List Char} (hn : isNumeral n = true)
    (hstage : stage ∈ stagePattern.matches') :
    (n ++ stage).takeWhile Char.isDigit = n ∧ (n ++ stage).dropWhile Char.isDigit = stage := by
  have hdigits : ∀ c ∈ n, c.isDigit = true := by
    rw [isNumeral, Bool.and_eq_true, List.all_eq_true] at hn
    exact hn.2
  have hstart : stage.takeWhile Char.isDigit = [] ∧ stage.dropWhile Char.isDigit = stage := by
    rcases mem_stagePattern.mp hstage with rfl | ⟨n', -, rfl | rfl⟩
    · exact ⟨rfl, rfl⟩
    · exact ⟨rfl, rfl⟩
    · exact ⟨rfl, rfl⟩
  rw [List.takeWhile_append_of_pos hdigits, List.dropWhile_append_of_pos hdigits, hstart.1,
    hstart.2, List.append_nil]
  exact ⟨rfl, rfl⟩

/-- **The check for versions accepts the language of versions.** -/
theorem isVersion_iff_matches {s : String} : isVersion s = true ↔ Matches versionPattern s := by
  -- the pattern cuts what follows the `v` in two, and so does the check
  have hcut : Matches versionPattern s ↔ ∃ n stage, isNumeral n = true
      ∧ stage ∈ stagePattern.matches' ∧ s.toList = 'v' :: (n ++ stage) := by
    rw [Matches, versionPattern, RegularExpression.matches'_mul, Language.mem_mul]
    constructor
    · rintro ⟨start, hstart, stage, hstage, hs⟩
      obtain ⟨v, rfl, n, hn, rfl⟩ := Language.mem_mul.mp hstart
      exact ⟨n, stage, mem_numberPattern.mp hn, hstage, hs.symm⟩
    · rintro ⟨n, stage, hn, hstage, hs⟩
      exact ⟨'v' :: n, Language.mem_mul.mpr ⟨['v'], rfl, n, mem_numberPattern.mpr hn, rfl⟩, stage,
        hstage, hs.symm⟩
  rw [hcut, isVersion]
  constructor
  · intro h
    split at h
    · rename_i rest hs
      rw [Bool.and_eq_true] at h
      exact ⟨_, _, h.1, isStage_iff.mp h.2, by rw [hs, List.takeWhile_append_dropWhile]⟩
    · cases h
  · rintro ⟨n, stage, hn, hstage, hs⟩
    obtain ⟨htake, hdrop⟩ := takeWhile_isDigit_append hn hstage
    rw [hs]
    show (isNumeral ((n ++ stage).takeWhile Char.isDigit)
      && isStage ((n ++ stage).dropWhile Char.isDigit)) = true
    rw [htake, hdrop, hn, isStage_iff.mpr hstage]
    rfl

end ApiModels.Text
