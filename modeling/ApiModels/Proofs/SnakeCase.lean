import ApiModels.Proofs.Identifiers
import ApiModels.Proofs.StrippedNames
import Mathlib.Data.List.DropRight

/-!
# Names in snake case

Snake case keeps the letters and digits of a name, lowers them and puts one underscore between words.
If they are all of ASCII, an identifier can hold what comes out but for a digit at its beginning, and
neither end of it is an underscore. That is enough to tell such names from the identifiers made of
them: what is added to a name to make it one are underscores at its ends.
-/

namespace ApiModels

namespace Text

/-- Every letter and digit of a text is one of ASCII. -/
def InAscii (s : String) : Prop := ∀ c ∈ s.toList, isAlphanumeric c = true → c.isAlphanum = true

instance (s : String) : Decidable (InAscii s) := inferInstanceAs (Decidable (∀ c ∈ s.toList, _))

/-- A text that an identifier can hold, but for a digit at its beginning, and whose ends are no
underscores. -/
structure IsSpelled (cs : List Char) : Prop where
  chars : ∀ c ∈ cs, Source.isIdentChar c = true
  head : ∃ c, cs.head? = some c ∧ c ≠ '_'
  last : ∃ c, cs.getLast? = some c ∧ c ≠ '_'

variable {cs ds word : List Char} {mode : LetterMode} {s : String}

/-! ## Words -/

/-- A run is made of letters and digits of the text, and is not empty. -/
theorem of_mem_runs {r : List Char} (h : r ∈ runs cs) :
    r ≠ [] ∧ ∀ c ∈ r, c ∈ cs ∧ isAlphanumeric c = true := by
  induction cs generalizing r with
  | nil => cases h
  | cons c cs ih =>
    have hlater : ∀ {r}, r ∈ runs cs → r ≠ [] ∧ ∀ d ∈ r, d ∈ c :: cs ∧ isAlphanumeric d = true :=
      fun hr => ⟨(ih hr).1, fun d hd => ⟨List.mem_cons_of_mem _ ((ih hr).2 d hd).1,
        ((ih hr).2 d hd).2⟩⟩
    rw [runs_cons] at h
    split at h
    case isFalse => exact hlater h
    case isTrue hc =>
      split at h
      case isTrue hnext =>
        rcases List.mem_cons.mp h with rfl | h
        · refine ⟨List.cons_ne_nil _ _, fun d hd => ?_⟩
          rcases List.mem_cons.mp hd with rfl | hd
          · exact ⟨List.mem_cons_self, hc⟩
          · -- the run that goes on is one of the rest
            cases hruns : runs cs with
            | nil =>
              rw [hruns] at hd
              cases hd
            | cons first more =>
              rw [hruns] at hd
              have hfirst : first ∈ runs cs := by rw [hruns]; exact List.mem_cons_self
              exact (hlater hfirst).2 d hd
        · exact hlater (List.mem_of_mem_tail h)
      case isFalse hnext =>
        rcases List.mem_cons.mp h with rfl | h
        · refine ⟨List.cons_ne_nil _ _, fun d hd => ?_⟩
          rw [List.mem_singleton.mp hd]
          exact ⟨List.mem_cons_self, hc⟩
        · exact hlater h

/-- A word is made of characters of its run, and is not empty. -/
theorem of_mem_cutRun (hword : mode = .upper → word ≠ []) {w : List Char}
    (h : w ∈ cutRun mode word cs) : w ≠ [] ∧ ∀ c ∈ w, c ∈ word ∨ c ∈ cs := by
  fun_induction cutRun mode word cs with
  | case1 => cases h
  | case2 mode word c =>
    rw [List.mem_singleton.mp h]
    refine ⟨by simp, fun d hd => ?_⟩
    rw [List.mem_reverse, List.mem_cons] at hd
    rcases hd with rfl | hd
    · exact .inr List.mem_cons_self
    · exact .inl hd
  | case3 mode word c d rest hends ih =>
    rcases List.mem_cons.mp h with rfl | h
    · exact ⟨by simp, fun x hx => (List.mem_cons.mp (List.mem_reverse.mp hx)).elim
        (fun hx => .inr (hx ▸ List.mem_cons_self)) .inl⟩
    · obtain ⟨hne, hchars⟩ := ih (fun h => by cases h) h
      exact ⟨hne, fun x hx => .inr (List.mem_cons_of_mem _ ((hchars x hx).resolve_left (by simp)))⟩
  | case4 mode word c d rest hends hbefore ih =>
    rcases List.mem_cons.mp h with rfl | h
    · exact ⟨by simpa using hword hbefore.1, fun x hx => .inl (List.mem_reverse.mp hx)⟩
    · obtain ⟨hne, hchars⟩ := ih (fun h => by cases h) h
      refine ⟨hne, fun x hx => .inr ?_⟩
      rcases hchars x hx with hx | hx
      · exact List.mem_singleton.mp hx ▸ List.mem_cons_self
      · exact List.mem_cons_of_mem _ hx
  | case5 mode word c d rest hends hbefore ih =>
    obtain ⟨hne, hchars⟩ := ih (fun _ => List.cons_ne_nil _ _) h
    refine ⟨hne, fun x hx => ?_⟩
    rcases hchars x hx with hx | hx
    · exact (List.mem_cons.mp hx).elim (fun hx => .inr (hx ▸ List.mem_cons_self)) .inl
    · exact .inr (List.mem_cons_of_mem _ hx)

/-- A word is made of letters and digits of the text, and is not empty. -/
theorem of_mem_words {w : List Char} (h : w ∈ words cs) :
    w ≠ [] ∧ ∀ c ∈ w, c ∈ cs ∧ isAlphanumeric c = true := by
  obtain ⟨r, hr, hw⟩ := List.mem_flatMap.mp h
  obtain ⟨hne, hchars⟩ := of_mem_cutRun (fun h => by cases h) hw
  exact ⟨hne, fun c hc => (of_mem_runs hr).2 c ((hchars c hc).resolve_left (by simp))⟩

theorem runs_ne_nil (h : ∃ c ∈ cs, isAlphanumeric c = true) : runs cs ≠ [] := by
  induction cs with
  | nil =>
    obtain ⟨c, hc, -⟩ := h
    cases hc
  | cons c cs ih =>
    rw [runs_cons]
    split
    · split <;> exact List.cons_ne_nil _ _
    · rename_i hc
      obtain ⟨d, hd, halphanumeric⟩ := h
      rcases List.mem_cons.mp hd with rfl | hd
      · exact absurd halphanumeric hc
      · exact ih ⟨d, hd, halphanumeric⟩

theorem cutRun_ne_nil (hne : cs ≠ []) : cutRun mode word cs ≠ [] := by
  fun_induction cutRun mode word cs with
  | case1 => exact absurd rfl hne
  | case2 => exact List.cons_ne_nil _ _
  | case3 => exact List.cons_ne_nil _ _
  | case4 => exact List.cons_ne_nil _ _
  | case5 mode word c d rest hends hbefore ih => exact ih (List.cons_ne_nil _ _)

/-- A text with a letter or digit has a word. -/
theorem words_ne_nil (h : ∃ c ∈ cs, isAlphanumeric c = true) : words cs ≠ [] := by
  obtain ⟨r, more, hr⟩ := List.exists_cons_of_ne_nil (runs_ne_nil h)
  have hmem : r ∈ runs cs := by rw [hr]; exact List.mem_cons_self
  rw [words, hr, List.flatMap_cons]
  exact List.append_ne_nil_of_left_ne_nil (cutRun_ne_nil (of_mem_runs hmem).1) _

/-! ## Spelled texts -/

theorem toNat_lt_of_isAlphanum {c : Char} (h : c.isAlphanum = true) : c.toNat < 128 := by
  have hval : c.toNat = c.val.toNat := rfl
  unfold Char.isAlphanum Char.isAlpha Char.isUpper Char.isLower Char.isDigit at h
  simp only [Bool.or_eq_true, Bool.and_eq_true, decide_eq_true_eq, UInt32.le_iff_toNat_le,
    Char.reduceVal, UInt32.reduceToNat] at h
  omega

/-- What holds of the letters and digits of ASCII can be seen from them one by one. -/
theorem of_isAlphanum {P : Char → Prop}
    (hascii : ∀ n < 128, (Char.ofNat n).isAlphanum = true → P (Char.ofNat n)) {c : Char}
    (h : c.isAlphanum = true) : P c := by
  have hc := hascii c.toNat (toNat_lt_of_isAlphanum h)
  rw [Char.ofNat_toNat] at hc
  exact hc h

theorem isAlphanum_toLower {c : Char} (h : c.isAlphanum = true) : c.toLower.isAlphanum = true :=
  of_isAlphanum (P := fun c => c.toLower.isAlphanum = true) (by decide) h

/-- A word in ASCII is lowered character by character. -/
theorem lowerWord_eq (h : ∀ c ∈ word, c.isAlphanum = true) :
    lowerWord word = word.map Char.toLower := by
  have hlower {c : Char} (hc : c.isAlphanum = true) : lowerChar c = [c.toLower] :=
    if_pos (toNat_lt_of_isAlphanum hc)
  fun_induction lowerWord word with
  | case1 => rfl
  | case2 => exact absurd (h _ List.mem_cons_self) (by decide)
  | case3 c => exact hlower (h c List.mem_cons_self)
  | case4 c rest _ ih =>
    rw [hlower (h c List.mem_cons_self), ih fun d hd => h d (List.mem_cons_of_mem _ hd)]
    rfl

theorem isSpelled_of_isAlphanum (hne : cs ≠ []) (h : ∀ c ∈ cs, c.isAlphanum = true) :
    IsSpelled cs where
  chars := fun c hc => by rw [Source.isIdentChar, h c hc, Bool.true_or]
  head := ⟨cs.head hne, List.head?_eq_some_head hne,
    fun heq => absurd (heq ▸ h _ (List.head_mem hne)) (by decide)⟩
  last := ⟨cs.getLast hne, List.getLast?_eq_some_getLast hne,
    fun heq => absurd (heq ▸ h _ (List.getLast_mem hne)) (by decide)⟩

/-- An underscore between spelled texts. -/
theorem IsSpelled.join (h : IsSpelled cs) (h' : IsSpelled ds) : IsSpelled (cs ++ '_' :: ds) where
  chars := by
    intro c hc
    rcases List.mem_append.mp hc with hc | hc
    · exact h.chars c hc
    · rcases List.mem_cons.mp hc with rfl | hc
      · decide
      · exact h'.chars c hc
  head := by
    obtain ⟨c, hc, hne⟩ := h.head
    exact ⟨c, by rw [List.head?_append, hc, Option.some_or], hne⟩
  last := by
    obtain ⟨c, hc, hne⟩ := h'.last
    exact ⟨c, by rw [List.getLast?_append, List.getLast?_cons, hc]; rfl, hne⟩

/-- Spelled texts with underscores between them, by induction on the texts. -/
theorem isSpelled_intercalate {words : List (List Char)} (hne : words ≠ [])
    (h : ∀ w ∈ words, IsSpelled w) : IsSpelled (['_'].intercalate words) := by
  induction words with
  | nil => exact absurd rfl hne
  | cons w words ih =>
    cases words with
    | nil =>
      rw [List.intercalate_singleton]
      exact h w List.mem_cons_self
    | cons v words =>
      rw [List.intercalate_cons_cons, List.append_assoc]
      exact (h w List.mem_cons_self).join
        (ih (List.cons_ne_nil _ _) fun u hu => h u (List.mem_cons_of_mem _ hu))

/-- **Snake case spells names in ASCII** that have a letter or digit. -/
theorem isSpelled_snakeCase (h : InAscii s) (hwords : words s.toList ≠ []) :
    IsSpelled (snakeCase s).toList := by
  rw [snakeCase, String.toList_ofList]
  refine isSpelled_intercalate (by simpa using hwords) fun w hw => ?_
  obtain ⟨word, hword, rfl⟩ := List.mem_map.mp hw
  obtain ⟨hne, hchars⟩ := of_mem_words hword
  have halphanum : ∀ c ∈ word, c.isAlphanum = true := fun c hc =>
    h c (hchars c hc).1 (hchars c hc).2
  rw [lowerWord_eq halphanum]
  refine isSpelled_of_isAlphanum (by simpa using hne) fun c hc => ?_
  obtain ⟨d, hd, rfl⟩ := List.mem_map.mp hc
  exact isAlphanum_toLower (halphanum d hd)

theorem isSpelled_numbered {base : String} (h : IsSpelled base.toList) (n : Nat) :
    IsSpelled (numbered base n).toList := by
  cases n with
  | zero => exact h
  | succ n =>
    have hlist : (numbered base (n + 1)).toList
        = base.toList ++ '_' :: Nat.toDigits 10 (n + 2) := by
      simp [numbered, toString]
    rw [hlist]
    refine h.join (isSpelled_of_isAlphanum (by simp) fun c hc => ?_)
    have hdigit : c.isDigit = true := Nat.isDigit_of_mem_toDigits (by decide) (by decide) hc
    rw [Char.isAlphanum, hdigit, Bool.or_true]

end Text

namespace Source

open Text

/-- What is added to a spelled text to make it an identifier are underscores at its ends. -/
theorem text_of_isSpelled {s : String} (h : IsSpelled s.toList) :
    ∃ before after : List Char, (Ident.ofName s).text.toList = before ++ s.toList ++ after
      ∧ (∀ c ∈ before, c = '_') ∧ ∀ c ∈ after, c = '_' := by
  have hsanitize : ∃ before, (sanitize s).toList = before ++ s.toList ∧ ∀ c ∈ before, c = '_' := by
    have hmap : (s.toList.map fun c => if isIdentChar c then c else '_') = s.toList := by
      refine (List.map_congr_left fun c hc => ?_).trans (List.map_id s.toList)
      exact if_pos (h.chars c hc)
    obtain ⟨c, hc, -⟩ := h.head
    unfold sanitize
    rw [hmap]
    cases hs : s.toList with
    | nil =>
      rw [hs] at hc
      cases hc
    | cons d ds =>
      dsimp only
      split
      · exact ⟨['_'], by rw [String.toList_ofList]; rfl, by simp⟩
      · exact ⟨[], by rw [String.toList_ofList]; rfl, by simp⟩
  obtain ⟨before, hlist, hbefore⟩ := hsanitize
  unfold Ident.ofName
  dsimp only
  split
  · exact ⟨before, ['_'], by rw [String.toList_append, hlist]; rfl, hbefore, by simp⟩
  · exact ⟨before, [], by rw [hlist, List.append_nil], hbefore, by simp⟩

/-- Leading underscores are dropped up to a text that does not begin with one. -/
theorem dropWhile_underscores {cs before : List Char} (hbefore : ∀ c ∈ before, c = '_')
    (h : ∃ c, cs.head? = some c ∧ c ≠ '_') : (before ++ cs).dropWhile (· = '_') = cs := by
  obtain ⟨c, hc, hne⟩ := h
  rw [List.dropWhile_append_of_pos (by simpa using hbefore)]
  cases cs with
  | nil => cases hc
  | cons d rest =>
    obtain rfl := Option.some.inj hc
    exact List.dropWhile_cons_of_neg (by simpa using hne)

/-- A spelled text is what is left of a text when underscores are taken off its ends. -/
theorem trim_of_isSpelled {cs before after : List Char} (h : IsSpelled cs)
    (hbefore : ∀ c ∈ before, c = '_') (hafter : ∀ c ∈ after, c = '_') :
    ((before ++ cs ++ after).dropWhile (· = '_')).rdropWhile (· = '_') = cs := by
  obtain ⟨c, hc, hne⟩ := h.head
  rw [List.append_assoc, dropWhile_underscores hbefore
      ⟨c, by rw [List.head?_append, hc, Option.some_or], hne⟩,
    List.rdropWhile, List.reverse_append, dropWhile_underscores (by simpa using hafter)
      (by simpa using h.last), List.reverse_reverse]

/-- **Spelled texts make different identifiers.** -/
theorem eq_of_text_eq {s t : String} (hs : IsSpelled s.toList) (ht : IsSpelled t.toList)
    (h : (Ident.ofName s).text = (Ident.ofName t).text) : s = t := by
  obtain ⟨before, after, hlist, hbefore, hafter⟩ := text_of_isSpelled hs
  obtain ⟨before', after', hlist', hbefore', hafter'⟩ := text_of_isSpelled ht
  rw [← String.toList_inj, ← trim_of_isSpelled hs hbefore hafter, ← hlist, h, hlist',
    trim_of_isSpelled ht hbefore' hafter']

/-- No name is made into the receiver. -/
theorem text_ne_self (s : String) : (Ident.ofName s).text ≠ "self" :=
  fun h => text_ofName_notMem_unusable s (h ▸ List.mem_cons_self)

end Source

end ApiModels
