import ApiModels.Call
import ApiModels.Http.Address
import Mathlib.Data.List.TakeWhile

/-!
# The segments of a path

A parameter of a path stands for a segment of it, and what replaces it is one segment again: no
value can hold a separator once it is encoded, nor end the path. So a path with its parameters
filled in has the segments of its template, filled in one by one. A segment is empty only where the
value is.
-/

namespace ApiModels.Text

/-! ## Replacing from the left -/

section

variable {old new : List Char}

theorem afterStart?_append_self (old rest : List Char) :
    afterStart? old (old ++ rest) = some rest := by
  induction old with
  | nil => rfl
  | cons c old ih =>
    rw [List.cons_append, afterStart?, if_pos rfl]
    exact ih

theorem afterStart?_self (text : List Char) : afterStart? text text = some [] := by
  rw [← afterStart?_append_self text [], List.append_nil]

theorem afterStart?_eq_some {text rest : List Char} (h : afterStart? old text = some rest) :
    text = old ++ rest := by
  induction old generalizing text with
  | nil =>
    cases h
    rfl
  | cons o old ih =>
    cases text with
    | nil => cases h
    | cons c text =>
      unfold afterStart? at h
      split at h
      · rename_i hc
        rw [hc, ih h]
        rfl
      · cases h

theorem dropStart?_append (start rest : String) : dropStart? start (start ++ rest) = some rest := by
  unfold dropStart?
  rw [String.toList_append, afterStart?_append_self, Option.map_some, String.ofList_toList]

theorem dropStart?_eq_some {start text rest : String} (h : dropStart? start text = some rest) :
    text = start ++ rest := by
  unfold dropStart? at h
  obtain ⟨cs, hcs, rfl⟩ := Option.map_eq_some_iff.mp h
  rw [← String.toList_inj, afterStart?_eq_some hcs, String.toList_append, String.toList_ofList]

theorem dropStart?_eq_none {start text : String} (h : ¬ start.toList <+: text.toList) :
    dropStart? start text = none := by
  unfold dropStart?
  cases hafter : afterStart? start.toList text.toList with
  | none => rfl
  | some rest => exact absurd ⟨rest, (afterStart?_eq_some hafter).symm⟩ h

/-- Taking away an opening makes a text shorter. -/
theorem length_lt_of_afterStart? (hold : old ≠ []) {text rest : List Char}
    (h : afterStart? old text = some rest) : rest.length < text.length := by
  rw [afterStart?_eq_some h, List.length_append]
  have := List.length_pos_iff.mpr hold
  omega

/-- An opening without a separator stands before the first separator. -/
theorem afterStart?_append {sep : Char} (hold : sep ∉ old) (first rest : List Char) :
    afterStart? old (first ++ sep :: rest)
      = (afterStart? old first).map (· ++ sep :: rest) := by
  induction old generalizing first with
  | nil => rfl
  | cons o old ih =>
    rw [List.mem_cons, not_or] at hold
    cases first with
    | nil => exact if_neg fun h => hold.1 h.symm
    | cons c first =>
      simp only [List.cons_append, afterStart?]
      split
      · exact ih hold.2 first
      · rfl

theorem replaceAux_start (hold : old ≠ []) {c : Char} {text rest : List Char} (fuel : Nat)
    (h : afterStart? old (c :: text) = some rest) :
    replaceAux old new (fuel + 1) (c :: text) = new ++ replaceAux old new fuel rest := by
  cases old with
  | nil => exact absurd rfl hold
  | cons o old => simp only [replaceAux, h]

theorem replaceAux_cons (hold : old ≠ []) {c : Char} {text : List Char} (fuel : Nat)
    (h : afterStart? old (c :: text) = none) :
    replaceAux old new (fuel + 1) (c :: text) = c :: replaceAux old new fuel text := by
  cases old with
  | nil => exact absurd rfl hold
  | cons o old => simp only [replaceAux, h]

/-- No more steps are taken than there are characters. -/
theorem replaceAux_eq (hold : old ≠ []) {fuel fuel' : Nat} {text : List Char}
    (h : text.length ≤ fuel) (h' : text.length ≤ fuel') :
    replaceAux old new fuel text = replaceAux old new fuel' text := by
  induction fuel generalizing fuel' text with
  | zero =>
    rw [List.length_eq_zero_iff.mp (Nat.le_zero.mp h)]
    cases fuel' <;> rfl
  | succ fuel ih =>
    cases text with
    | nil => cases fuel' <;> rfl
    | cons c text =>
      obtain ⟨fuel', rfl⟩ : ∃ n, fuel' = n + 1 := Nat.exists_eq_succ_of_ne_zero (by
        rintro rfl
        cases h')
      cases hrest : afterStart? old (c :: text) with
      | some rest =>
        have hlt : rest.length < text.length + 1 := length_lt_of_afterStart? hold hrest
        have hsteps : replaceAux old new fuel rest = replaceAux old new fuel' rest :=
          ih (Nat.le_of_lt_succ (Nat.lt_of_lt_of_le hlt h))
            (Nat.le_of_lt_succ (Nat.lt_of_lt_of_le hlt h'))
        rw [replaceAux_start hold fuel hrest, replaceAux_start hold fuel' hrest, hsteps]
      | none =>
        have hsteps : replaceAux old new fuel text = replaceAux old new fuel' text :=
          ih (Nat.le_of_succ_le_succ h) (Nat.le_of_succ_le_succ h')
        rw [replaceAux_cons hold fuel hrest, replaceAux_cons hold fuel' hrest, hsteps]

variable (old new) in
/-- A text with every occurrence of `old` replaced. -/
def replaced (text : List Char) : List Char := replaceAux old new text.length text

theorem replace_eq (old new text : String) :
    replace old new text = String.ofList (replaced old.toList new.toList text.toList) := by
  unfold replace replaced
  rw [String.length_toList]

theorem replaced_start (hold : old ≠ []) {text rest : List Char}
    (h : afterStart? old text = some rest) :
    replaced old new text = new ++ replaced old new rest := by
  have hlt := length_lt_of_afterStart? hold h
  cases text with
  | nil => cases hlt
  | cons c text =>
    have hle : rest.length ≤ text.length := Nat.le_of_lt_succ hlt
    have hsteps : replaceAux old new text.length rest = replaced old new rest :=
      replaceAux_eq hold hle (Nat.le_refl rest.length)
    rw [← hsteps]
    exact replaceAux_start hold text.length h

theorem replaced_cons (hold : old ≠ []) {c : Char} {text : List Char}
    (h : afterStart? old (c :: text) = none) :
    replaced old new (c :: text) = c :: replaced old new text :=
  replaceAux_cons hold text.length h

/-- A text is taken apart from the left as it is replaced: an occurrence, or a character that opens
none. -/
theorem replaced_induction (hold : old ≠ []) {P : List Char → Prop} (nil : P [])
    (start : ∀ text rest, afterStart? old text = some rest → P rest → P text)
    (cons : ∀ c text, afterStart? old (c :: text) = none → P text → P (c :: text))
    (text : List Char) : P text := by
  induction hn : text.length using Nat.strongRecOn generalizing text with
  | ind n ih =>
    subst hn
    cases text with
    | nil => exact nil
    | cons c text =>
      cases hrest : afterStart? old (c :: text) with
      | some rest =>
        exact start _ rest hrest (ih _ (length_lt_of_afterStart? hold hrest) rest rfl)
      | none => exact cons c text hrest (ih _ (Nat.lt_succ_self _) text rfl)

/-- What replaces a text replaces the whole of it. -/
theorem replaced_self (hold : old ≠ []) : replaced old new old = new := by
  rw [replaced_start hold (afterStart?_self old)]
  exact List.append_nil new

/-- Every character comes from the text or from what is put into it. -/
theorem mem_replaced (hold : old ≠ []) {c : Char} {text : List Char}
    (h : c ∈ replaced old new text) : c ∈ new ∨ c ∈ text := by
  induction text using replaced_induction hold with
  | nil => exact .inr h
  | start text rest hrest ih =>
    rw [replaced_start hold hrest, List.mem_append] at h
    rcases h with h | h
    · exact .inl h
    · rw [afterStart?_eq_some hrest, List.mem_append]
      exact (ih h).imp_right .inr
  | cons d text hrest ih =>
    rw [replaced_cons hold hrest, List.mem_cons] at h
    rw [List.mem_cons]
    rcases h with h | h
    · exact .inr (.inl h)
    · exact (ih h).imp_right .inr

/-- What is put in place of a text without a separator leaves the separators where they are. -/
theorem replaced_append (hold : old ≠ []) {sep : Char} (hsep : sep ∉ old)
    (first rest : List Char) :
    replaced old new (first ++ sep :: rest)
      = replaced old new first ++ sep :: replaced old new rest := by
  induction first using replaced_induction hold with
  | nil =>
    refine replaced_cons hold ?_
    have h := afterStart?_append hsep [] rest
    cases old with
    | nil => exact absurd rfl hold
    | cons o old => exact h
  | start first tail htail ih =>
    rw [replaced_start hold htail, List.append_assoc, ← ih]
    refine replaced_start hold ?_
    rw [afterStart?_append hsep, htail]
    rfl
  | cons c first hnone ih =>
    rw [replaced_cons hold hnone, List.cons_append, List.cons_append, ← ih]
    refine replaced_cons hold ?_
    rw [← List.cons_append, afterStart?_append hsep, hnone]
    rfl

/-- A text that lacks a character of `old` stays as it is. -/
theorem replaced_of_notMem {c : Char} (hold : c ∈ old) {text : List Char} (h : c ∉ text) :
    replaced old new text = text := by
  have hne : old ≠ [] := List.ne_nil_of_mem hold
  induction text using replaced_induction hne with
  | nil => rfl
  | start text rest hrest ih =>
    refine absurd ?_ h
    rw [afterStart?_eq_some hrest]
    exact List.mem_append_left rest hold
  | cons d text hrest ih =>
    rw [replaced_cons hne hrest, ih fun hc => h (List.mem_cons_of_mem d hc)]

end

/-! ## Pieces -/

section

variable {sep : Char}

/-- A text without a separator is one piece. -/
theorem pieces_single {text : List Char} (h : sep ∉ text) : pieces sep text = [text] := by
  induction text with
  | nil => rfl
  | cons c text ih =>
    rw [List.mem_cons, not_or] at h
    rw [pieces, if_neg (Ne.symm h.1), ih h.2]

/-- The first piece ends at the first separator. -/
theorem pieces_first {first : List Char} (h : sep ∉ first) (rest : List Char) :
    pieces sep (first ++ sep :: rest) = first :: pieces sep rest := by
  induction first with
  | nil => exact if_pos rfl
  | cons c first ih =>
    rw [List.mem_cons, not_or] at h
    rw [List.cons_append, pieces, if_neg (Ne.symm h.1), ih h.2]

/-- A text is cut at its first separator, if it has one. -/
theorem cut_cases {α : Type} (sep : α) (text : List α) :
    sep ∉ text ∨ ∃ first rest, sep ∉ first ∧ text = first ++ sep :: rest := by
  by_cases h : sep ∈ text
  · obtain ⟨first, rest, htext, hfirst⟩ := List.eq_append_cons_of_mem h
    exact .inr ⟨first, rest, hfirst, htext⟩
  · exact .inl h

/-- A text is taken apart at its separators from the left. -/
theorem cut_induction {α : Type} (sep : α) {P : List α → Prop}
    (last : ∀ text, sep ∉ text → P text)
    (more : ∀ first rest, sep ∉ first → P rest → P (first ++ sep :: rest)) (text : List α) :
    P text := by
  induction hn : text.length using Nat.strongRecOn generalizing text with
  | ind n ih =>
    rcases cut_cases sep text with h | ⟨first, rest, hfirst, rfl⟩
    · exact last text h
    · have hlt : rest.length < n := by
        rw [← hn, List.length_append, List.length_cons]
        omega
      exact more first rest hfirst (ih _ hlt rest rfl)

/-- Texts that are joined with a separator are cut there again. -/
theorem pieces_append (first rest : List Char) :
    pieces sep (first ++ sep :: rest) = pieces sep first ++ pieces sep rest := by
  induction first using cut_induction sep with
  | last first h =>
    rw [pieces_first h, pieces_single h]
    rfl
  | more start first hstart ih =>
    rw [List.append_assoc, List.cons_append, pieces_first hstart, pieces_first hstart, ih]
    rfl

theorem length_pieces (sep : Char) (text : List Char) :
    (pieces sep text).length = text.count sep + 1 := by
  induction text using cut_induction sep with
  | last text h =>
    rw [pieces_single h, List.count_eq_zero_of_not_mem h]
    rfl
  | more first rest h ih =>
    rw [pieces_first h, List.length_cons, ih, List.count_append, List.count_cons_self,
      List.count_eq_zero_of_not_mem h, Nat.zero_add]

/-- A text is cut into one piece more than it has separators. -/
theorem length_split (sep : Char) (s : String) :
    (split sep s).length = s.toList.count sep + 1 := by
  rw [split, List.length_map, length_pieces]

theorem pieces_intercalate {parts : List (List Char)} (h : ∀ part ∈ parts, sep ∉ part)
    (hne : parts ≠ []) : pieces sep ([sep].intercalate parts) = parts := by
  induction parts with
  | nil => exact absurd rfl hne
  | cons part parts ih =>
    have hpart : sep ∉ part := h part List.mem_cons_self
    cases parts with
    | nil => rw [List.intercalate_singleton, pieces_single hpart]
    | cons next parts =>
      rw [List.intercalate_cons_cons, List.append_assoc, List.singleton_append,
        pieces_first hpart, ih (fun l hl => h l (List.mem_cons_of_mem _ hl)) (List.cons_ne_nil _ _)]

/-- `pieces_intercalate` on strings. -/
theorem split_intercalate {between : String} {parts : List String} (hsep : between.toList = [sep])
    (h : ∀ s ∈ parts, sep ∉ s.toList) (hne : parts ≠ []) :
    split sep (between.intercalate parts) = parts := by
  have hparts : ∀ part ∈ parts.map String.toList, sep ∉ part := List.forall_mem_map.mpr h
  have hofList : String.ofList ∘ String.toList = id := funext fun s => String.ofList_toList
  unfold split
  rw [String.toList_intercalate, hsep, pieces_intercalate hparts (by simpa using hne),
    List.map_map, hofList, List.map_id]

theorem pieces_ne_nil (text : List Char) : pieces sep text ≠ [] := by
  induction text using cut_induction sep with
  | last text h => simp [pieces_single h]
  | more first rest h _ => simp [pieces_first h]

/-- Pieces that are joined again are the text. -/
theorem intercalate_pieces (text : List Char) : [sep].intercalate (pieces sep text) = text := by
  induction text using cut_induction sep with
  | last text h => rw [pieces_single h, List.intercalate_singleton]
  | more first rest h ih =>
    rw [pieces_first h, List.intercalate_cons_of_ne_nil (pieces_ne_nil rest), ih]
    simp

/-- A text is cut at the separator after which there is no other. -/
theorem splitLast?_append {first last : List Char} (h : sep ∉ last) :
    splitLast? sep (String.ofList (first ++ sep :: last))
      = some (String.ofList first, String.ofList last) := by
  have hpieces : (pieces sep (first ++ sep :: last)).reverse
      = last :: (pieces sep first).reverse := by
    rw [pieces_append, pieces_single h, List.reverse_append]
    rfl
  unfold splitLast?
  rw [String.toList_ofList, hpieces]
  rcases hfirst : (pieces sep first).reverse with _ | ⟨p, ps⟩
  · exact absurd (List.reverse_eq_nil_iff.mp hfirst) (pieces_ne_nil first)
  · dsimp only
    rw [← hfirst, List.reverse_reverse, intercalate_pieces]

theorem splitLast?_eq_some {text a b : String} (h : splitLast? sep text = some (a, b)) :
    text.toList = a.toList ++ sep :: b.toList := by
  by_cases hsep : sep ∈ text.toList
  · obtain ⟨last, first, htext, hlast⟩ := List.eq_append_cons_of_mem (List.mem_reverse.mpr hsep)
    have hcut : text.toList = first.reverse ++ sep :: last.reverse := by
      rw [← List.reverse_reverse text.toList, htext]
      simp
    rw [← String.ofList_toList (s := text), hcut, splitLast?_append (by simpa using hlast)] at h
    cases h
    rw [hcut, String.toList_ofList, String.toList_ofList]
  · unfold splitLast? at h
    rw [pieces_single hsep] at h
    cases h

theorem notMem_of_mem_pieces {piece text : List Char} (h : piece ∈ pieces sep text) :
    sep ∉ piece := by
  induction text using cut_induction sep with
  | last text htext =>
    rw [pieces_single htext] at h
    rwa [List.mem_singleton.mp h]
  | more first rest hfirst ih =>
    rw [pieces_first hfirst] at h
    rcases List.mem_cons.mp h with rfl | h
    · exact hfirst
    · exact ih h

/-- Replacing without touching separators replaces piece by piece. -/
theorem pieces_replaced {old new : List Char} (hne : old ≠ []) (hold : sep ∉ old)
    (hnew : sep ∉ new) (text : List Char) :
    pieces sep (replaced old new text) = (pieces sep text).map (replaced old new) := by
  have hout {text : List Char} (h : sep ∉ text) : sep ∉ replaced old new text :=
    fun hmem => (mem_replaced hne hmem).elim hnew h
  induction text using cut_induction sep with
  | last text h =>
    rw [pieces_single h, pieces_single (hout h)]
    rfl
  | more first rest hfirst ih =>
    rw [replaced_append hne hold, pieces_first (hout hfirst), pieces_first hfirst, ih]
    rfl

/-- Replacing without touching what ends a text leaves its end where it is. -/
theorem takeWhile_replaced {old new : List Char} (hne : old ≠ []) {p : Char → Bool}
    (hold : ∀ c ∈ old, p c) (hnew : ∀ c ∈ new, p c) (text : List Char) :
    (replaced old new text).takeWhile p = replaced old new (text.takeWhile p) := by
  have hkept : ∀ c ∈ replaced old new (text.takeWhile p), p c := by
    intro c hc
    rcases mem_replaced hne hc with h | h
    · exact hnew c h
    · exact List.mem_takeWhile_imp h
  have htext : text.takeWhile p ++ text.dropWhile p = text := List.takeWhile_append_dropWhile
  cases hrest : text.dropWhile p with
  | nil =>
    rw [hrest, List.append_nil] at htext
    rw [htext] at hkept ⊢
    exact List.takeWhile_eq_self_iff.mpr hkept
  | cons c rest =>
    have hc : p c = false := by
      have h := List.dropWhile_get_zero_not p text (by simp [hrest])
      simpa [hrest] using h
    have hsep : c ∉ old := fun h => by simp [hold c h] at hc
    rw [hrest] at htext
    calc (replaced old new text).takeWhile p
        = (replaced old new (text.takeWhile p) ++ c :: replaced old new rest).takeWhile p := by
          rw [← replaced_append hne hsep, htext]
      _ = replaced old new (text.takeWhile p) := by
          rw [List.takeWhile_append_of_pos hkept, List.takeWhile_cons_of_neg (by simp [hc]),
            List.append_nil]

end

/-! ## Encoded segments -/

/-- The characters that end a segment, end a path, or open and close a parameter. -/
def delimiters : List Char := ['/', '?', '#', '\x7b', '\x7d']

/-- A character is written with percent signs and hexadecimal digits only. -/
theorem mem_percentChar {c d : Char} (h : d ∈ percentChar c) :
    d = '%' ∨ ∃ n < 16, d = upperHexDigit n := by
  obtain ⟨b, -, hb⟩ := List.mem_flatMap.mp h
  have hlt : b.toNat < 256 := b.toNat_lt
  simp only [percentByte, List.mem_cons, List.not_mem_nil, or_false] at hb
  rcases hb with rfl | rfl | rfl
  · exact .inl rfl
  · exact .inr ⟨b.toNat / 16, by omega, rfl⟩
  · exact .inr ⟨b.toNat % 16, by omega, rfl⟩

theorem upperHexDigit_notMem {n : Nat} (h : n < 16) : upperHexDigit n ∉ delimiters := by
  have hall : ∀ n < 16, upperHexDigit n ∉ delimiters := by decide
  exact hall n h

theorem notMem_percentChar {c d : Char} (hd : d ∈ delimiters) : d ∉ percentChar c := by
  intro h
  rcases mem_percentChar h with rfl | ⟨n, hn, rfl⟩
  · revert hd
    decide
  · exact upperHexDigit_notMem hn hd

/-- No character of an encoded segment can be mistaken for structure. -/
theorem notMem_encodeSegment {d : Char} (hd : d ∈ delimiters) (s : String) :
    d ∉ (encodeSegment s).toList := by
  intro h
  unfold encodeSegment at h
  rw [String.toList_ofList] at h
  obtain ⟨c, -, hc⟩ := List.mem_flatMap.mp h
  split at hc
  · rename_i hkept
    cases List.mem_singleton.mp hc
    unfold delimiters at hd
    simp only [List.mem_cons, List.not_mem_nil, or_false] at hd
    rcases hd with rfl | rfl | rfl | rfl | rfl <;> revert hkept <;> decide
  · exact notMem_percentChar hd hc

theorem percentChar_ne_nil (c : Char) : percentChar c ≠ [] := by
  have hbytes : String.utf8EncodeChar c ≠ [] := by
    rw [← List.length_pos_iff, String.length_utf8EncodeChar]
    exact c.utf8Size_pos
  obtain ⟨b, bs, hbs⟩ := List.exists_cons_of_ne_nil hbytes
  unfold percentChar
  rw [hbs]
  exact List.cons_ne_nil _ _

theorem segmentChar_ne_nil (c : Char) :
    (if keptInSegment c then [c] else percentChar c) ≠ [] := by
  split
  · exact List.cons_ne_nil c []
  · exact percentChar_ne_nil c

/-- Only what is empty is encoded as nothing. -/
theorem encodeSegment_eq_empty {s : String} : encodeSegment s = "" ↔ s = "" := by
  unfold encodeSegment
  rw [String.ofList_eq_empty_iff, List.flatMap_eq_nil_iff, ← String.toList_eq_nil_iff,
    List.eq_nil_iff_forall_not_mem]
  exact forall₂_congr fun c _ => iff_of_false (segmentChar_ne_nil c) (by simp)

/-- A prefix of what is encoded by a code in which no word begins another is the encoding of a
prefix. -/
theorem prefix_of_flatMap {α β : Type} {code : α → List β} (hne : ∀ a, code a ≠ [])
    (hfree : ∀ a b, code a <+: code b → a = b) {xs : List α} :
    ∀ {ys : List α}, xs.flatMap code <+: ys.flatMap code → xs <+: ys := by
  induction xs with
  | nil => exact fun _ => List.nil_prefix
  | cons x xs ih =>
    intro ys h
    rw [List.flatMap_cons] at h
    cases ys with
    | nil => exact absurd (List.append_eq_nil_iff.mp (List.prefix_nil.mp h)).1 (hne x)
    | cons y ys =>
      rw [List.flatMap_cons] at h
      obtain rfl : x = y :=
        (List.prefix_or_prefix_of_prefix ((List.prefix_append _ _).trans h)
          (List.prefix_append _ _)).elim (hfree x y) fun hy => (hfree y x hy).symm
      exact (List.prefix_cons_inj x).mpr (ih ((List.prefix_append_right_inj _).mp h))

theorem upperHexDigit_inj {m n : Nat} (hm : m < 16) (hn : n < 16)
    (h : upperHexDigit m = upperHexDigit n) : m = n := by
  have hall : ∀ m < 16, ∀ n < 16, upperHexDigit m = upperHexDigit n → m = n := by decide
  exact hall m hm n hn h

theorem percentByte_free (a b : UInt8) (h : percentByte a <+: percentByte b) : a = b := by
  have heq : percentByte a = percentByte b := h.eq_of_length rfl
  have ha : a.toNat < 256 := a.toNat_lt
  have hb : b.toNat < 256 := b.toNat_lt
  simp only [percentByte, List.cons.injEq, and_true, true_and] at heq
  have hhigh := upperHexDigit_inj (by omega) (by omega) heq.1
  have hlow := upperHexDigit_inj (by omega) (by omega) heq.2
  exact UInt8.toNat_inj.mp (by omega)

/-- The bytes of one character do not begin with those of another. -/
theorem utf8EncodeChar_free {c d : Char} (h : String.utf8EncodeChar c <+: String.utf8EncodeChar d) :
    c = d := by
  obtain ⟨bytes, hbytes⟩ := h
  have hstart : [c] <+: [d] := by
    refine List.isPrefix_of_utf8Encode_append_eq_utf8Encode bytes.toByteArray ?_
    unfold List.utf8Encode
    rw [← List.toByteArray_append, List.flatMap_singleton, List.flatMap_singleton, hbytes]
  exact List.singleton_inj.mp (hstart.eq_of_length rfl)

theorem percentChar_free {c d : Char} (h : percentChar c <+: percentChar d) : c = d :=
  utf8EncodeChar_free (prefix_of_flatMap (fun _ => List.cons_ne_nil _ _) percentByte_free h)

theorem head?_percentChar (c : Char) : (percentChar c).head? = some '%' := by
  have hne := percentChar_ne_nil c
  unfold percentChar at hne ⊢
  cases hbytes : String.utf8EncodeChar c with
  | nil =>
    rw [hbytes] at hne
    exact absurd rfl hne
  | cons b bytes => rfl

/-- What is written for a character is not the beginning of what is written for another: what is
kept is no percent sign, and the rest begins with one. -/
theorem segmentChar_free (c d : Char)
    (h : (if keptInSegment c then [c] else percentChar c)
      <+: if keptInSegment d then [d] else percentChar d) : c = d := by
  have hpercent : keptInSegment '%' = false := by decide
  have hhead : ∀ {a : Char} (rest : List Char), keptInSegment a = true →
      (a :: rest).head? ≠ some '%' := by
    intro a rest ha heq
    rw [Option.some.inj heq, hpercent] at ha
    cases ha
  split at h <;> split at h
  · exact List.singleton_inj.mp (h.eq_of_length rfl)
  · rename_i hc _
    obtain ⟨rest, hrest⟩ := h
    refine absurd ?_ (hhead rest hc)
    rw [← head?_percentChar d, ← hrest]
    rfl
  · rename_i _ hd
    obtain ⟨rest, hrest⟩ := h
    refine absurd ?_ (hhead [] hd)
    rw [← hrest, List.head?_append, head?_percentChar]
    rfl
  · exact percentChar_free h

/-- **An encoded segment tells what it encodes.** -/
theorem encodeSegment_inj {s t : String} : encodeSegment s = encodeSegment t ↔ s = t := by
  refine ⟨fun h => ?_, fun h => h ▸ rfl⟩
  have hlist := String.ofList_inj.mp h
  have hst := prefix_of_flatMap segmentChar_ne_nil segmentChar_free ⟨[], (List.append_nil _).trans hlist⟩
  have hts := prefix_of_flatMap segmentChar_ne_nil segmentChar_free ⟨[], (List.append_nil _).trans hlist.symm⟩
  exact String.toList_inj.mp (hst.eq_of_length_le hts.length_le)

/-! ## Paths -/

/-- Whether a character stands in the path of an address, before its query and its fragment. -/
def isInPath (c : Char) : Bool := c ≠ '?' && c ≠ '#'

/-- The path that an address or a template begins with. -/
def pathPart (s : String) : List Char := s.toList.takeWhile isInPath

/-- The segments of the path that an address or a template begins with. -/
def pathSegments (s : String) : List String :=
  (pieces '/' (s.toList.takeWhile isInPath)).map String.ofList

theorem replace_self {old : String} (hne : old ≠ "") (new : String) : replace old new old = new := by
  rw [replace_eq, replaced_self fun h => hne (String.toList_eq_nil_iff.mp h), String.ofList_toList]

theorem replace_of_notMem {old text : String} {c : Char} (hold : c ∈ old.toList)
    (h : c ∉ text.toList) (new : String) : replace old new text = text := by
  rw [replace_eq, replaced_of_notMem hold h, String.ofList_toList]

/-- A value does not end the path that it is put into. -/
theorem isInPath_encodeSegment (value : String) :
    ∀ c ∈ (encodeSegment value).toList, isInPath c = true := by
  intro c hc
  have hquery : c ≠ '?' := fun h => notMem_encodeSegment (by decide) value (h ▸ hc)
  have hfragment : c ≠ '#' := fun h => notMem_encodeSegment (by decide) value (h ▸ hc)
  simp [isInPath, hquery, hfragment]

/-- The segments of a path in which a parameter is filled in are those of the template, filled in
one by one. -/
theorem pathSegments_replace {old : String} (hne : old ≠ "")
    (hold : ∀ c ∈ old.toList, isInPath c = true ∧ c ≠ '/') (value template : String) :
    pathSegments (replace old (encodeSegment value) template)
      = (pathSegments template).map (replace old (encodeSegment value)) := by
  have hne : old.toList ≠ [] := fun h => hne (String.toList_eq_nil_iff.mp h)
  have hslash : '/' ∉ (encodeSegment value).toList := notMem_encodeSegment (by decide) value
  unfold pathSegments
  rw [replace_eq, String.toList_ofList, takeWhile_replaced hne (fun c hc => (hold c hc).1)
    (isInPath_encodeSegment value), pieces_replaced hne (fun h => (hold '/' h).2 rfl) hslash,
    List.map_map, List.map_map]
  refine List.map_congr_left fun piece _ => ?_
  simp only [Function.comp_apply, replace_eq, String.toList_ofList]

/-- A template that starts with a slash still does when a parameter is filled in. -/
theorem head?_replace {old : String} (hne : old ≠ "") (hold : '/' ∉ old.toList) (new : String)
    {template : String} (h : template.toList.head? = some '/') :
    (replace old new template).toList.head? = some '/' := by
  have hne : old.toList ≠ [] := fun h => hne (String.toList_eq_nil_iff.mp h)
  obtain ⟨rest, hrest⟩ := List.head?_eq_some_iff.mp h
  have hreplaced : replaced old.toList new.toList ('/' :: rest)
      = '/' :: replaced old.toList new.toList rest :=
    replaced_append hne hold [] rest
  rw [replace_eq, String.toList_ofList, hrest, hreplaced]
  rfl

/-- The path of a request is that of the text it is made of, if that starts with a slash. -/
theorem pathPart_address {s a : String} (hrooted : s.toList.head? = some '/')
    (h : Http.address s = .ok a) : pathPart a = pathPart s := by
  obtain ⟨rest, hrest⟩ := List.head?_eq_some_iff.mp hrooted
  have ha : a = String.ofList (Http.beforeFragment s.toList) := by
    unfold Http.address at h
    rw [hrest] at h ⊢
    split at h
    · cases h
    · have hpath : (Http.pathAndQuery ('/' :: rest)).map String.ofList = .ok a := h
      unfold Http.pathAndQuery at hpath
      dsimp only at hpath
      split at hpath
      · cases hpath
        rfl
      · cases hpath
  unfold pathPart
  rw [ha, String.toList_ofList]
  unfold Http.beforeFragment
  rw [List.takeWhile_takeWhile]
  congr 1
  funext c
  by_cases hc : c = '#' <;> simp [isInPath, hc]

theorem pathSegments_address {s a : String} (hrooted : s.toList.head? = some '/')
    (h : Http.address s = .ok a) : pathSegments a = pathSegments s :=
  congrArg (fun path => (pieces '/' path).map String.ofList) (pathPart_address hrooted h)

end ApiModels.Text
