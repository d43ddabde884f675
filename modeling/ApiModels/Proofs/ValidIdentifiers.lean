import ApiModels.Proofs.Patterns
import ApiModels.Source.Reading.Ahead
import ApiModels.Source.Scan

/-!
# Names become valid identifiers

An identifier can be made of a text in three ways: of the text as it stands, raw, and by reading the
text, which refuses keywords. Each of them is only for some texts, and to make one of another text
ends the program. Every name that a schema can supply comes out as an identifier all the same: by
then it is a text that an identifier can hold; the few words that cannot be raw have an underscore
behind them, and what reading refuses after that is a keyword that can be raw.

How identifiers are made is a parameter here, since that is not for the generator to say.
-/

namespace ApiModels.Source

open Text (Matches oneOf digits)

/-- The letters of ASCII. -/
def letters : List Char := "abcdefghijklmnopqrstuvwxyzABCDEFGHIJKLMNOPQRSTUVWXYZ".toList

/-- `[A-Za-z_][A-Za-z0-9_]*` -/
def identifierPattern : RegularExpression Char :=
  oneOf ('_' :: letters) * (oneOf ('_' :: letters ++ digits)).star

/-- Ways to make an identifier of a text, with no result for a text that is not for them. -/
structure Maker where
  /-- Of a text as it stands. -/
  plain? : String → Option Ident
  /-- Of a text behind `r#`. -/
  raw? : String → Option Ident
  /-- By reading the text, if that is an identifier and no keyword. -/
  read? : String → Option Ident

/-- What is relied on of the ways to make an identifier, for texts of the right shape. -/
structure Maker.IsUsual (k : Maker) : Prop where
  plain? : ∀ s, Matches identifierPattern s → k.plain? s = some ⟨s, false⟩
  raw? : ∀ s, Matches identifierPattern s → s ∉ unusable → k.raw? s = some ⟨s, true⟩
  read? : ∀ s, Matches identifierPattern s →
    k.read? s = if s ∈ keywords ∨ s ∈ unusable then none else some ⟨s, false⟩

/-- Makes the identifier of a name. -/
def Maker.make? (k : Maker) (s : String) : Option Ident :=
  let name := sanitize s
  if unusable.contains name then k.plain? (name ++ "_") else (k.read? name).or (k.raw? name)

variable {s : String}

/-! ## The shape of identifiers -/

theorem mem_identChars {c : Char} : c ∈ '_' :: letters ++ digits ↔ isIdentChar c = true := by
  constructor
  · have hall : ('_' :: letters ++ digits).all isIdentChar = true := by decide
    exact List.all_eq_true.mp hall c
  · intro h
    rw [isIdentChar, Bool.or_eq_true, decide_eq_true_eq] at h
    rcases h with h | rfl
    · exact Text.of_isAlphanum (P := fun c => c ∈ '_' :: letters ++ digits) (by decide +kernel) h
    · exact List.mem_cons_self

theorem mem_identStarts {c : Char} :
    c ∈ '_' :: letters ↔ isIdentChar c = true ∧ c.isDigit = false := by
  rw [← mem_identChars, List.mem_append, Text.mem_digits]
  have hnodigit : ('_' :: letters).all (fun d => !d.isDigit) = true := by decide
  constructor
  · exact fun h => ⟨.inl h, by simpa using List.all_eq_true.mp hnodigit c h⟩
  · rintro ⟨h | h, hdigit⟩
    · exact h
    · rw [h] at hdigit
      cases hdigit

theorem matches_iff_isPlain : Matches identifierPattern s ↔ IsPlain s := by
  rw [Matches, identifierPattern, RegularExpression.matches'_mul, Language.mem_mul]
  constructor
  · rintro ⟨start, hstart, rest, hrest, hs⟩
    obtain ⟨c, hc, rfl⟩ := Text.mem_oneOf.mp hstart
    obtain ⟨hident, hdigit⟩ := mem_identStarts.mp hc
    rw [List.singleton_append] at hs
    refine ⟨by rw [← hs]; exact List.cons_ne_nil c rest, ?_, ?_⟩
    · rw [← hs]
      exact List.forall_mem_cons.mpr
        ⟨hident, fun d hd => mem_identChars.mp (Text.mem_star_oneOf.mp hrest d hd)⟩
    · rw [← hs]
      exact fun d hd => Option.some.inj hd ▸ hdigit
  · intro h
    obtain ⟨c, rest, hs⟩ := List.exists_cons_of_ne_nil h.ne_nil
    have hchars := h.chars
    rw [hs] at hchars
    obtain ⟨hident, hrest⟩ := List.forall_mem_cons.mp hchars
    have hdigit : c.isDigit = false := h.head c (by rw [hs]; rfl)
    exact ⟨[c], Text.mem_oneOf.mpr ⟨c, mem_identStarts.mpr ⟨hident, hdigit⟩, rfl⟩, rest,
      Text.mem_star_oneOf.mpr fun d hd => mem_identChars.mpr (hrest d hd), hs.symm⟩

/-! ## Identifiers of names -/

/-- An identifier is raw where its text is a keyword, also behind an added underscore. -/
theorem raw_ofName (s : String) :
    (Ident.ofName s).raw = keywords.contains (Ident.ofName s).text := by
  have hunderscored : ∀ name ∈ unusable, keywords.contains (name ++ "_") = false := by decide
  unfold Ident.ofName
  dsimp only
  split
  · rename_i h
    exact (hunderscored _ (List.contains_iff_mem.mp h)).symm
  · rfl

/-- The text of an identifier is a name of that identifier. -/
theorem ofName_text (s : String) : Ident.ofName (Ident.ofName s).text = Ident.ofName s := by
  have husable : unusable.contains (Ident.ofName s).text = false := by
    rw [← Bool.not_eq_true, List.contains_iff_mem]
    exact text_ofName_notMem_unusable s
  rw [Ident.ofName, sanitize_of_isPlain (isPlain_text_ofName s), husable,
    if_neg Bool.false_ne_true, ← raw_ofName]

/-- **Every name is made into its identifier.** -/
theorem Maker.IsUsual.make?_eq {k : Maker} (hk : k.IsUsual) (s : String) :
    k.make? s = some (Ident.ofName s) := by
  have hname := isPlain_sanitize s
  unfold make? Ident.ofName
  dsimp only
  split
  · exact hk.plain? _ (matches_iff_isPlain.mpr (isPlain_underscored hname))
  · -- what reading refuses now is a keyword, and that can be raw
    rename_i h
    rw [List.contains_iff_mem] at h
    have hmatches := matches_iff_isPlain.mpr hname
    rw [hk.read? _ hmatches, hk.raw? _ hmatches h]
    by_cases hkeyword : sanitize s ∈ keywords
    · rw [if_pos (.inl hkeyword), List.contains_iff_mem.mpr hkeyword]
      rfl
    · have hread : keywords.contains (sanitize s) = false := by
        rw [← Bool.not_eq_true, List.contains_iff_mem]
        exact hkeyword
      rw [if_neg (by simp [hkeyword, h]), hread]
      rfl

/-! ## Identifiers by scanning -/

/-- The identifier that a whole text is written as. -/
def scanned? (written : String) : Option Ident :=
  match Scan.anyWord written.toList with
  | some (i, []) => some i
  | _ => none

/-- The ways to make an identifier, where each is to scan it as it is written. -/
def Maker.scanning : Maker where
  plain? := scanned?
  raw? := fun s => scanned? ("r#" ++ s)
  read? := fun s => (scanned? s).filter fun i => Ahead.isName [.word i]

theorem plainWord_of_isPlain (h : IsPlain s) : Scan.plainWord s.toList = some (s.toList, []) := by
  have hnext {c : Char} (hc : isIdentChar c = true) : Text.isNameChar c = true := by
    rw [isIdentChar, Bool.or_eq_true, decide_eq_true_eq] at hc
    rcases hc with hc | rfl
    · rw [Text.isNameChar, if_pos (Text.toNat_lt_of_isAlphanum hc), hc, Bool.true_or]
    · decide
  have hstart {c : Char} (hc : isIdentChar c = true) (hdigit : c.isDigit = false) :
      Scan.startsWord c = true := by
    rw [isIdentChar, Bool.or_eq_true, decide_eq_true_eq] at hc
    rcases hc with hc | rfl
    · have halpha : c.isAlpha = true := by simpa [Char.isAlphanum, hdigit] using hc
      rw [Scan.startsWord, Text.isNameStart, if_pos (Text.toNat_lt_of_isAlphanum hc), halpha,
        Bool.or_true]
    · decide
  obtain ⟨c, cs, hs⟩ := List.exists_cons_of_ne_nil h.ne_nil
  have hchars := h.chars
  rw [hs] at hchars
  obtain ⟨hc, hcs⟩ := List.forall_mem_cons.mp hchars
  have hword : ∀ d ∈ cs, Text.isNameChar d = true := fun d hd => hnext (hcs d hd)
  rw [hs, Scan.plainWord, if_pos (hstart hc (h.head c (by rw [hs]; rfl))),
    List.takeWhile_eq_self_iff.mpr hword, List.dropWhile_eq_nil_iff.mpr hword]

theorem scanned?_of_isPlain (h : IsPlain s) : scanned? s = some ⟨s, false⟩ := by
  have hword : Scan.anyWord s.toList = some (⟨s, false⟩, []) := by
    unfold Scan.anyWord
    split
    · -- no identifier has a hash sign in it
      rename_i hs
      exact absurd (h.chars '#' (by rw [hs]; simp)) (by decide)
    · rw [plainWord_of_isPlain h, Option.map_some, String.ofList_toList]
  rw [scanned?, hword]

theorem scanned?_raw (h : IsPlain s) (husable : s ∉ unusable) :
    scanned? ("r#" ++ s) = some ⟨s, true⟩ := by
  have hraw : Scan.neverRaw.contains s = false := by
    have hsub : ∀ name ∈ Scan.neverRaw, name ∈ unusable := by decide
    rw [← Bool.not_eq_true, List.contains_iff_mem]
    exact fun hmem => husable (hsub s hmem)
  have hlist : ("r#" ++ s).toList = 'r' :: '#' :: s.toList := by
    rw [String.toList_append]
    rfl
  have hword : Scan.anyWord ('r' :: '#' :: s.toList) = some (⟨s, true⟩, []) := by
    rw [Scan.anyWord, plainWord_of_isPlain h, Option.bind_eq_bind, Option.bind_some]
    dsimp only
    rw [String.ofList_toList, hraw]
    rfl
  rw [scanned?, hlist, hword]

/-- Scanning takes every text of the right shape for the identifier that it is. -/
theorem isUsual_scanning : Maker.scanning.IsUsual where
  plain? := fun _ hs => scanned?_of_isPlain (matches_iff_isPlain.mp hs)
  raw? := fun _ hs husable => scanned?_raw (matches_iff_isPlain.mp hs) husable
  read? := by
    intro s hs
    have hscanned := scanned?_of_isPlain (matches_iff_isPlain.mp hs)
    have hname : Ahead.isName [.word ⟨s, false⟩] = decide ¬(s ∈ keywords ∨ s ∈ unusable) := by
      simp [Ahead.isName, List.contains_eq_mem]
    show (scanned? s).filter _ = _
    rw [hscanned, Option.filter_some, hname]
    by_cases h : s ∈ keywords ∨ s ∈ unusable
    · simp [h]
    · simp [h]

/-! ## Names of fields -/

/-- The name of a field has more in it than underscores. -/
theorem exists_ne_underscore (wire : String) : ∃ c ∈ (fieldName wire).toList, c ≠ '_' := by
  unfold fieldName
  extract_lets trimmed snake name
  split
  · exact ⟨'f', by decide, by decide⟩
  · rename_i h
    rw [Bool.or_eq_true, not_or, List.all_eq_true] at h
    simpa using h.2

/--
**Names become valid identifiers.**

Whatever a name is, an identifier is made of it. Its text begins with a letter or an underscore of
ASCII, goes on with these and digits, and is more than one underscore. It is raw exactly if the text
is a keyword that can be raw; a word that cannot be is never the text. And the identifier made of
the text is the same one. The name of a field is such a text as well, whatever it is on the wire,
and has more in it than underscores.
-/
theorem identifiers_of_names (k : Maker) (hk : k.IsUsual) :
    (∀ s, k.make? s = some (Ident.ofName s)
        ∧ Matches identifierPattern (Ident.ofName s).text
        ∧ (Ident.ofName s).text ≠ "_"
        ∧ ((Ident.ofName s).raw = true ↔ (Ident.ofName s).text ∈ keywords)
        ∧ (Ident.ofName s).text ∉ ["self", "Self", "super", "crate"]
        ∧ k.make? (Ident.ofName s).text = some (Ident.ofName s))
      ∧ ∀ wire, Matches identifierPattern (fieldName wire)
        ∧ ∃ c ∈ (fieldName wire).toList, c ≠ '_' := by
  refine ⟨fun s => ⟨hk.make?_eq s, matches_iff_isPlain.mpr (isPlain_text_ofName s), ?_, ?_, ?_, ?_⟩,
    fun wire => ⟨matches_iff_isPlain.mpr (isPlain_fieldName wire), exists_ne_underscore wire⟩⟩
  · exact fun h => text_ofName_notMem_unusable s (h ▸ by decide)
  · rw [raw_ofName, List.contains_iff_mem]
  · intro h
    have hsub : ∀ name ∈ ["self", "Self", "super", "crate"], name ∈ unusable := by decide
    exact text_ofName_notMem_unusable s (hsub _ h)
  · rw [hk.make?_eq, ofName_text]

/-- A keyword, a word that cannot be raw, a text that begins with a digit and goes on outside ASCII,
and no text at all. -/
theorem identifiers_of_names_scanning :
    Maker.scanning.IsUsual
      ∧ Maker.scanning.make? "type" = some ⟨"type", true⟩
      ∧ Maker.scanning.make? "crate" = some ⟨"crate_", false⟩
      ∧ Maker.scanning.make? "1é" = some ⟨"_1_", false⟩
      ∧ Maker.scanning.make? "" = some ⟨"unknown", false⟩
      ∧ Matches identifierPattern (fieldName "$-é-") := by
  obtain ⟨hnames, hfields⟩ := identifiers_of_names Maker.scanning isUsual_scanning
  refine ⟨isUsual_scanning, ?_, ?_, ?_, ?_, (hfields "$-é-").1⟩
  · exact (hnames "type").1.trans (by decide)
  · exact (hnames "crate").1.trans (by decide)
  · exact (hnames "1é").1.trans (by decide)
  · exact (hnames "").1.trans (by decide)

end ApiModels.Source
