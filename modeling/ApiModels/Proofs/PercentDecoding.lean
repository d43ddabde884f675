import ApiModels.Proofs.Segments
import ApiModels.Text.Hexadecimal

/-!
# Reading encoded text

What is carried inside an address is read back in two ways: a segment of a path by its percent
signs, and a form as pairs between ampersands, in which a plus sign is a space. Both give back what
was encoded, whatever the characters are: a percent sign never stands for itself, and neither does
any separator.
-/

namespace ApiModels.Text

/-! ## Percent signs -/

/-- The byte that two hexadecimal digits stand for. -/
def byteOf? (high low : Char) : Option UInt8 := do
  return UInt8.ofNat (16 * (← hexValue? high) + (← hexValue? low))

/-- The bytes of a text in which `%XX` stands for a byte. A percent sign without two digits stands
for itself. -/
def percentBytes : List Char → List UInt8
  | c :: high :: low :: rest =>
    match if c = '%' then byteOf? high low else none with
    | some b => b :: percentBytes rest
    | none => String.utf8EncodeChar c ++ percentBytes (high :: low :: rest)
  | c :: rest => String.utf8EncodeChar c ++ percentBytes rest
  | [] => []

/-- The text that a text with percent signs stands for, if its bytes are text. -/
def percentDecode? (s : String) : Option String :=
  String.fromUTF8? (percentBytes s.toList).toByteArray

theorem fromUTF8?_toByteArray (s : String) : String.fromUTF8? s.toByteArray = some s :=
  dif_pos s.isValidUTF8

theorem percentBytes_cons {c : Char} (h : c ≠ '%') (rest : List Char) :
    percentBytes (c :: rest) = String.utf8EncodeChar c ++ percentBytes rest := by
  match rest with
  | [] => rfl
  | [_] => rfl
  | high :: low :: rest => rw [percentBytes, if_neg h]

theorem hexValue?_upperHexDigit {n : Nat} (h : n < 16) : hexValue? (upperHexDigit n) = some n := by
  have hall : ∀ n < 16, hexValue? (upperHexDigit n) = some n := by decide
  exact hall n h

/-- A byte is read back. -/
theorem percentBytes_percentByte (b : UInt8) (rest : List Char) :
    percentBytes (percentByte b ++ rest) = b :: percentBytes rest := by
  have hlt : b.toNat < 256 := b.toNat_lt
  have hbyte : byteOf? (upperHexDigit (b.toNat / 16)) (upperHexDigit (b.toNat % 16)) = some b := by
    unfold byteOf?
    rw [hexValue?_upperHexDigit (by omega), hexValue?_upperHexDigit (by omega)]
    show some (UInt8.ofNat (16 * (b.toNat / 16) + b.toNat % 16)) = some b
    rw [Nat.div_add_mod, UInt8.ofNat_toNat]
  have hpercent : percentByte b ++ rest
      = '%' :: upperHexDigit (b.toNat / 16) :: upperHexDigit (b.toNat % 16) :: rest := rfl
  rw [hpercent, percentBytes, if_pos rfl, hbyte]

theorem percentBytes_percentChar (c : Char) (rest : List Char) :
    percentBytes (percentChar c ++ rest) = String.utf8EncodeChar c ++ percentBytes rest := by
  have hbytes : ∀ bytes : List UInt8, percentBytes (bytes.flatMap percentByte ++ rest)
      = bytes ++ percentBytes rest := by
    intro bytes
    induction bytes with
    | nil => rfl
    | cons b bytes ih =>
      rw [List.flatMap_cons, List.append_assoc, percentBytes_percentByte, ih, List.cons_append]
  exact hbytes _

/-- A way to write characters: each as it is, unless it is the percent sign, or byte by byte. -/
def IsCode (code : Char → List Char) : Prop :=
  ∀ c, code c = [c] ∧ c ≠ '%' ∨ code c = percentChar c

/-- **What is written in such a way is read back.** -/
theorem percentDecode?_of_code {code : Char → List Char} (hcode : IsCode code) (s : String) :
    percentDecode? (String.ofList (s.toList.flatMap code)) = some s := by
  have hbytes : ∀ cs : List Char,
      percentBytes (cs.flatMap code) = cs.flatMap String.utf8EncodeChar := by
    intro cs
    induction cs with
    | nil => rfl
    | cons c cs ih =>
      rw [List.flatMap_cons, List.flatMap_cons, ← ih]
      rcases hcode c with ⟨hkept, hc⟩ | hpercent
      · rw [hkept]
        exact percentBytes_cons hc _
      · rw [hpercent]
        exact percentBytes_percentChar c _
  unfold percentDecode?
  rw [String.toList_ofList, hbytes, ← fromUTF8?_toByteArray s, ← String.utf8Encode_toList]
  rfl

/-- **A segment is read back.** -/
theorem percentDecode?_encodeSegment (s : String) : percentDecode? (encodeSegment s) = some s := by
  refine percentDecode?_of_code (fun c => ?_) s
  by_cases hc : keptInSegment c = true
  · refine .inl ⟨if_pos hc, fun hpercent => ?_⟩
    rw [hpercent] at hc
    revert hc
    decide
  · exact .inr (if_neg hc)

/-! ## Forms -/

/-- The text that a component of a form stands for. -/
def formDecode? (s : String) : Option String :=
  percentDecode? (String.ofList (s.toList.map fun c => if c = '+' then ' ' else c))

/-- What stands for a pair: its name and its value around an equals sign, or a name alone. -/
def pairDecode? (s : String) : Option (String × String) :=
  match splitFirst? '=' s with
  | some (name, value) => do return (← formDecode? name, ← formDecode? value)
  | none => do return (← formDecode? s, "")

/-- The pairs of a form. -/
def pairsDecode? (s : String) : Option (List (String × String)) :=
  ((split '&' s).filter (· ≠ "")).mapM pairDecode?

/-- What separates and joins in a form, and opens one. -/
def formMarks : List Char := ['&', '=', '?']

theorem upperHexDigit_notMem_marks {n : Nat} (h : n < 16) : upperHexDigit n ∉ '+' :: formMarks := by
  have hall : ∀ n < 16, upperHexDigit n ∉ '+' :: formMarks := by decide
  exact hall n h

/-- Nothing that separates is left in a component. -/
theorem notMem_encodeForm {d : Char} (hd : d ∈ formMarks) (s : String) :
    d ∉ (encodeForm s).toList := by
  intro h
  unfold encodeForm at h
  rw [String.toList_ofList] at h
  obtain ⟨c, -, hc⟩ := List.mem_flatMap.mp h
  unfold formChar at hc
  split at hc
  · rename_i hkept
    cases List.mem_singleton.mp hc
    unfold formMarks at hd
    simp only [List.mem_cons, List.not_mem_nil, or_false] at hd
    rcases hd with rfl | rfl | rfl <;> revert hkept <;> decide
  · split at hc
    · cases List.mem_singleton.mp hc
      revert hd
      decide
    · rcases mem_percentChar hc with rfl | ⟨n, hn, rfl⟩
      · revert hd
        decide
      · exact upperHexDigit_notMem_marks hn (List.mem_cons_of_mem '+' hd)

/-- **A component of a form is read back.** Only spaces are written as plus signs. -/
theorem formDecode?_encodeForm (s : String) : formDecode? (encodeForm s) = some s := by
  let spaced (c : Char) : List Char := (formChar c).map fun d => if d = '+' then ' ' else d
  have hcode : IsCode spaced := by
    intro c
    have hplus : keptInForm '+' = false := by decide
    have hpercent : keptInForm '%' = false := by decide
    by_cases hkept : keptInForm c = true
    · have hc : c ≠ '+' := by
        rintro rfl
        rw [hplus] at hkept
        cases hkept
      refine .inl ⟨?_, ?_⟩
      · simp [spaced, formChar, hkept, hc]
      · rintro rfl
        rw [hpercent] at hkept
        cases hkept
    · by_cases hspace : c = ' '
      · subst hspace
        exact .inl ⟨by decide, by decide⟩
      · have hform : formChar c = percentChar c := by
          unfold formChar
          rw [if_neg hkept, if_neg hspace]
        refine .inr ?_
        show (formChar c).map _ = percentChar c
        rw [hform]
        refine (List.map_congr_left fun d hd => if_neg ?_).trans (List.map_id _)
        rcases mem_percentChar hd with rfl | ⟨n, hn, rfl⟩
        · decide
        · exact fun heq => upperHexDigit_notMem_marks hn (heq ▸ List.mem_cons_self)
  unfold formDecode? encodeForm
  rw [String.toList_ofList, List.map_flatMap]
  exact percentDecode?_of_code hcode s

/-- A text is cut at its first separator. -/
theorem splitFirst?_append {sep : Char} {first : String} (h : sep ∉ first.toList) (rest : String) :
    splitFirst? sep (first ++ String.singleton sep ++ rest) = some (first, rest) := by
  have hfirst : ∀ c ∈ first.toList, decide (c ≠ sep) = true :=
    fun c hc => decide_eq_true fun heq => h (heq ▸ hc)
  have hlist : (first ++ String.singleton sep ++ rest).toList
      = first.toList ++ sep :: rest.toList := by simp
  unfold splitFirst?
  rw [hlist, List.dropWhile_append_of_pos hfirst, List.takeWhile_append_of_pos hfirst,
    List.dropWhile_cons_of_neg (by simp), List.takeWhile_cons_of_neg (by simp), List.append_nil,
    String.ofList_toList]
  exact congrArg (fun after => some (first, after)) String.ofList_toList

theorem splitFirst?_eq_none {sep : Char} {text : String} (h : sep ∉ text.toList) :
    splitFirst? sep text = none := by
  have hall : ∀ c ∈ text.toList, decide (c ≠ sep) = true :=
    fun c hc => decide_eq_true fun heq => h (heq ▸ hc)
  unfold splitFirst?
  rw [List.dropWhile_eq_nil_iff.mpr hall]

/-- A pair as it stands in a form. -/
def encodePair (p : String × String) : String := encodeForm p.1 ++ "=" ++ encodeForm p.2

theorem pairDecode?_encodePair (p : String × String) : pairDecode? (encodePair p) = some p := by
  unfold pairDecode?
  rw [show encodePair p = encodeForm p.1 ++ String.singleton '=' ++ encodeForm p.2 from rfl,
    splitFirst?_append (notMem_encodeForm (by decide) p.1)]
  dsimp only
  rw [formDecode?_encodeForm, formDecode?_encodeForm]
  rfl

theorem notMem_encodePair (p : String × String) : '&' ∉ (encodePair p).toList := by
  intro h
  unfold encodePair at h
  simp only [String.toList_append, List.mem_append] at h
  rcases h with (hname | heq) | hvalue
  · exact notMem_encodeForm (by decide) p.1 hname
  · revert heq
    decide
  · exact notMem_encodeForm (by decide) p.2 hvalue

theorem encodePair_ne_empty (p : String × String) : encodePair p ≠ "" := by
  intro h
  have hmem : '=' ∈ (encodePair p).toList := by simp [encodePair]
  rw [h] at hmem
  cases hmem

/-- **Pairs are read back,** in their order and with all repetitions. -/
theorem pairsDecode?_encodePairs {pairs : List (String × String)} (h : pairs ≠ []) :
    pairsDecode? (encodePairs pairs) = some pairs := by
  have hsplit : split '&' (encodePairs pairs) = pairs.map encodePair := by
    have hparts : ∀ part ∈ pairs.map encodePair, '&' ∉ part.toList :=
      List.forall_mem_map.mpr fun p _ => notMem_encodePair p
    exact split_intercalate rfl hparts (by simpa using h)
  have hfilter : (pairs.map encodePair).filter (· ≠ "") = pairs.map encodePair := by
    refine List.filter_eq_self.mpr fun s hs => ?_
    obtain ⟨p, -, rfl⟩ := List.mem_map.mp hs
    exact decide_eq_true (encodePair_ne_empty p)
  have hread : ∀ pairs : List (String × String),
      (pairs.map encodePair).mapM pairDecode? = some pairs := by
    intro pairs
    induction pairs with
    | nil => rfl
    | cons p pairs ih =>
      rw [List.map_cons, List.mapM_cons, pairDecode?_encodePair, ih]
      rfl
  unfold pairsDecode?
  rw [hsplit, hfilter, hread]

end ApiModels.Text
