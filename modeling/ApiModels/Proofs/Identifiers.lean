import ApiModels.Proofs.FirstFree
import ApiModels.Source.Identifier

/-!
# Identifiers and names

Different names may be made into one identifier. They are not where a name can be an identifier as
it stands, as the names of fields can, and the numbered ones that step in for them: only a name that
no identifier may have gets an underscore. Nor is any name made into an identifier without
underscores other than itself.
-/

namespace ApiModels.Source

/-- A text that an identifier can hold as it stands. -/
structure IsPlain (s : String) : Prop where
  ne_nil : s.toList ≠ []
  chars : ∀ c ∈ s.toList, isIdentChar c = true
  head : ∀ c ∈ s.toList.head?, c.isDigit = false

theorem sanitize_of_isPlain {s : String} (h : IsPlain s) : sanitize s = s := by
  have hmap : (s.toList.map fun c => if isIdentChar c then c else '_') = s.toList := by
    refine (List.map_congr_left fun c hc => ?_).trans (List.map_id s.toList)
    exact if_pos (h.chars c hc)
  unfold sanitize
  rw [hmap]
  cases hs : s.toList with
  | nil => exact absurd hs h.ne_nil
  | cons c cs =>
    have hc : c.isDigit = false := h.head c (by rw [hs]; rfl)
    dsimp only
    rw [hc, if_neg Bool.false_ne_true, ← hs, String.ofList_toList]

theorem isPlain_sanitize (s : String) : IsPlain (sanitize s) := by
  have hchars : ∀ c ∈ s.toList.map fun c => if isIdentChar c then c else '_',
      isIdentChar c = true := by
    intro c hc
    obtain ⟨d, -, rfl⟩ := List.mem_map.mp hc
    split
    · assumption
    · rfl
  unfold sanitize
  generalize (s.toList.map fun c => if isIdentChar c then c else '_') = cs at hchars
  cases cs with
  | nil => exact ⟨by simp, by simp [isIdentChar], by simp⟩
  | cons c cs =>
    dsimp only
    split
    · refine ⟨by simp, ?_, by simp⟩
      intro d hd
      rw [String.toList_ofList, List.mem_cons] at hd
      rcases hd with rfl | hd
      · rfl
      · exact hchars d hd
    · rename_i hc
      refine ⟨by simp, ?_, ?_⟩
      · rw [String.toList_ofList]
        exact hchars
      · intro d hd
        rw [String.toList_ofList, List.head?_cons, Option.mem_some_iff] at hd
        rw [← hd]
        simpa using hc

theorem isPlain_fieldName (wire : String) : IsPlain (fieldName wire) := by
  unfold fieldName
  extract_lets trimmed snake name
  by_cases h : (name = "unknown" || name.toList.all (· = '_')) = true
  · rw [if_pos h]
    exact ⟨by simp, by simp [isIdentChar], by simp⟩
  · rw [if_neg h]
    exact isPlain_sanitize snake

/-- An underscore keeps a text plain. -/
theorem isPlain_underscored {s : String} (h : IsPlain s) : IsPlain (s ++ "_") := by
  have hlist : (s ++ "_").toList = s.toList ++ ['_'] := by simp
  obtain ⟨c, cs, hs⟩ := List.exists_cons_of_ne_nil h.ne_nil
  refine ⟨?_, ?_, ?_⟩
  · rw [hlist]
    simp
  · intro d hd
    rw [hlist, List.mem_append] at hd
    rcases hd with hd | hd
    · exact h.chars d hd
    · cases List.mem_singleton.mp hd
      rfl
  · rw [hlist, hs]
    exact fun d hd => h.head d (by rw [hs]; exact hd)

/-- A number after an underscore keeps a text plain. -/
theorem isPlain_numbered {base : String} (h : IsPlain base) (i : Nat) :
    IsPlain (Text.numbered base i) := by
  cases i with
  | zero => exact h
  | succ n =>
    obtain ⟨c, cs, hbase⟩ := List.exists_cons_of_ne_nil h.ne_nil
    have hlist : (Text.numbered base (n + 1)).toList
        = base.toList ++ ['_'] ++ Nat.toDigits 10 (n + 2) := by
      simp [Text.numbered, toString]
    refine ⟨?_, ?_, ?_⟩
    · rw [hlist]
      simp
    · intro d hd
      rw [hlist, List.mem_append, List.mem_append] at hd
      rcases hd with (hd | hd) | hd
      · exact h.chars d hd
      · cases List.mem_singleton.mp hd
        rfl
      · have hdigit : d.isDigit = true := Nat.isDigit_of_mem_toDigits (by decide) (by decide) hd
        simp [isIdentChar, Char.isAlphanum, hdigit]
    · rw [hlist, hbase]
      exact fun d hd => h.head d (by rw [hbase]; exact hd)

/-- The text of an identifier is its name, made usable. -/
theorem text_ofName {s : String} (h : IsPlain s) :
    (Ident.ofName s).text = if unusable.contains s then s ++ "_" else s := by
  unfold Ident.ofName
  rw [sanitize_of_isPlain h]
  dsimp only
  split
  · rfl
  · rfl

theorem isPlain_text_ofName (s : String) : IsPlain (Ident.ofName s).text := by
  have hplain := isPlain_sanitize s
  unfold Ident.ofName
  dsimp only
  split
  · exact isPlain_underscored hplain
  · exact hplain

/-- No identifier has a name that none may have. -/
theorem text_ofName_notMem_unusable (s : String) : (Ident.ofName s).text ∉ unusable := by
  have hunderscored : ∀ name ∈ unusable, name ++ "_" ∉ unusable := by decide
  unfold Ident.ofName
  dsimp only
  split
  · rename_i h
    exact hunderscored _ (List.contains_iff_mem.mp h)
  · rename_i h
    exact fun hmem => h (List.contains_iff_mem.mpr hmem)

/-- A numbered name is longer than any that no identifier may have and that has an underscore. -/
theorem numbered_usable {base : String} (h : IsPlain base) (n : Nat) :
    unusable.contains (Text.numbered base (n + 1)) = false := by
  have hlist : (Text.numbered base (n + 1)).toList
      = base.toList ++ '_' :: Nat.toDigits 10 (n + 2) := by
    simp [Text.numbered, toString]
  have hlong : 1 < (Text.numbered base (n + 1)).toList.length := by
    have hpos := List.length_pos_iff.mpr h.ne_nil
    rw [hlist, List.length_append, List.length_cons]
    omega
  have hmem : '_' ∈ (Text.numbered base (n + 1)).toList := by
    rw [hlist]
    exact List.mem_append_right _ List.mem_cons_self
  have hall : ∀ s ∈ unusable, '_' ∈ s.toList → s.toList.length = 1 := by decide
  rw [← Bool.not_eq_true, List.contains_iff_mem]
  intro hcontains
  have hone := hall _ hcontains hmem
  omega

/-- **The candidates for a field differ as they are written.** -/
theorem text_candidate_injective {base : String} (h : IsPlain base) :
    Function.Injective fun i => (Ident.ofName (Text.numbered base i)).text := by
  have htext (n : Nat) :
      (Ident.ofName (Text.numbered base (n + 1))).text = Text.numbered base (n + 1) := by
    rw [text_ofName (isPlain_numbered h _), numbered_usable h n, if_neg Bool.false_ne_true]
  -- the first candidate is shorter than any numbered one, with its underscore or without
  have hlt (n : Nat) : (Ident.ofName (Text.numbered base 0)).text.length
      < (Ident.ofName (Text.numbered base (n + 1))).text.length := by
    have hdigits : 0 < (toString (n + 2)).length := by
      simp [toString, ← String.length_toList, List.length_pos_iff]
    have hone : "_".length = 1 := rfl
    have hfirst : (Ident.ofName (Text.numbered base 0)).text
        = if unusable.contains base then base ++ "_" else base :=
      text_ofName h
    rw [htext, hfirst]
    split
    · simp only [Text.numbered, String.length_append]
      omega
    · simp only [Text.numbered, String.length_append]
      omega
  intro i j hij
  cases i with
  | zero =>
    cases j with
    | zero => rfl
    | succ n => exact absurd (congrArg String.length hij) (Nat.ne_of_lt (hlt n))
  | succ n =>
    cases j with
    | zero => exact absurd (congrArg String.length hij) (Nat.ne_of_gt (hlt n))
    | succ k =>
      dsimp only at hij
      rw [htext, htext] at hij
      exact Text.numbered_injective base hij

/-- A name without underscores is not what another name is made into. -/
theorem eq_of_sanitize_eq {s name : String} (hplain : '_' ∉ name.toList) (hne : name ≠ "unknown")
    (h : sanitize s = name) : s = name := by
  have hchars : ∀ c ∈ s.toList, (if isIdentChar c then c else '_') ∈ name.toList := by
    intro c hc
    have hmem := List.mem_map_of_mem (f := fun c => if isIdentChar c then c else '_') hc
    rw [← h]
    unfold sanitize
    cases hs : s.toList.map fun c => if isIdentChar c then c else '_' with
    | nil =>
      rw [hs] at hmem
      cases hmem
    | cons d ds =>
      rw [hs] at hmem
      dsimp only
      split
      · rw [String.toList_ofList]
        exact List.mem_cons_of_mem _ hmem
      · rw [String.toList_ofList]
        exact hmem
  -- a character that is replaced would be an underscore of the name
  have hmap : (s.toList.map fun c => if isIdentChar c then c else '_') = s.toList := by
    refine (List.map_congr_left fun c hc => ?_).trans (List.map_id s.toList)
    have hc := hchars c hc
    by_cases hident : isIdentChar c = true
    · exact if_pos hident
    · rw [if_neg hident] at hc
      exact absurd hc hplain
  unfold sanitize at h
  rw [hmap] at h
  cases hs : s.toList with
  | nil =>
    rw [hs] at h
    exact absurd h.symm hne
  | cons c cs =>
    rw [hs] at h
    dsimp only at h
    split at h
    · rw [← h, String.toList_ofList] at hplain
      exact absurd List.mem_cons_self hplain
    · rw [← h, ← hs, String.ofList_toList]

/-- An identifier whose text has no underscore is that of its text only. -/
theorem eq_of_text_ofName {s name : String} (hplain : '_' ∉ name.toList) (hne : name ≠ "unknown")
    (h : (Ident.ofName s).text = name) : s = name := by
  unfold Ident.ofName at h
  dsimp only at h
  split at h
  · rw [← h, String.toList_append] at hplain
    exact absurd (List.mem_append_right _ List.mem_cons_self) hplain
  · exact eq_of_sanitize_eq hplain hne h

end ApiModels.Source
