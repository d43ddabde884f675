import ApiModels.Json.Print
import ApiModels.Json.Table
import ApiModels.Registry.Entry
import ApiModels.Proofs.Table

/-!
# Printed JSON reads back

A value without numbers is read back from its indented text as it was. The text may stand anywhere in
a longer one, as long as that has the size it is said to have; so the parts of a value are read one
after the other, each from where the one before it ended. What is read is a draft that shows the
value: the same but for the places of its containers, on which nothing depends that ends well.
-/

namespace ApiModels.Json

/-! ## Places in a text -/

/-- How many bytes some characters take up. -/
def byteLength : List Char → Nat
  | [] => 0
  | c :: cs => c.utf8Size + byteLength cs

theorem byteLength_cons (c : Char) (cs : List Char) :
    byteLength (c :: cs) = c.utf8Size + byteLength cs := rfl

theorem byteLength_append (cs ds : List Char) :
    byteLength (cs ++ ds) = byteLength cs + byteLength ds := by
  induction cs with
  | nil => exact (Nat.zero_add _).symm
  | cons c cs ih => rw [List.cons_append, byteLength_cons, byteLength_cons, ih, Nat.add_assoc]

theorem length_le_byteLength (cs : List Char) : cs.length ≤ byteLength cs := by
  induction cs with
  | nil => exact Nat.le_refl 0
  | cons c cs ih =>
      have hpos := c.utf8Size_pos
      rw [List.length_cons, byteLength_cons]
      omega

theorem byteLength_toList (s : String) : byteLength s.toList = s.utf8ByteSize := by
  have hofList : ∀ cs : List Char, byteLength cs = (String.ofList cs).utf8ByteSize := by
    intro cs
    induction cs with
    | nil => rfl
    | cons c cs ih =>
        rw [byteLength_cons, ih, ← List.singleton_append, String.ofList_append,
          String.utf8ByteSize_append, ← String.singleton_eq_ofList, String.utf8ByteSize_singleton]
  rw [hofList, String.ofList_toList]

/-- Characters that are left of a text from some place on. No byte of the text is stray. -/
structure Within (extent : Extent) (pos : Nat) (cs : List Char) : Prop where
  strays : extent.strays = []
  le : pos + byteLength cs ≤ extent.size

variable {extent : Extent} {pos fuel level : Nat} {c : Char} {cs tail done : List Char}

theorem Within.append (h : Within extent pos (cs ++ tail)) :
    Within extent (pos + byteLength cs) tail := by
  have hle := h.le
  rw [byteLength_append] at hle
  exact ⟨h.strays, by omega⟩

/-- After a character that takes up one byte. -/
theorem Within.next (h : Within extent pos (c :: cs)) (hc : c.utf8Size = 1) :
    Within extent (pos + 1) cs := by
  have hle := h.le
  rw [byteLength_cons, hc] at hle
  exact ⟨h.strays, by omega⟩

/-! ## Blanks -/

theorem skipBlanks_of_not (hc : isJsonBlank c = false) :
    skipBlanks pos (c :: cs) = ⟨pos, c :: cs⟩ := by
  rw [skipBlanks, hc]
  rfl

/-- A new line and the indentation after it are blanks. -/
theorem skipBlanks_newLine (level pos : Nat) (cs : List Char) :
    skipBlanks pos (newLine level ++ cs) = skipBlanks (pos + byteLength (newLine level)) cs := by
  have hspaces : ∀ n pos : Nat, skipBlanks pos (List.replicate n ' ' ++ cs)
      = skipBlanks (pos + byteLength (List.replicate n ' ')) cs := by
    intro n
    induction n with
    | zero => exact fun pos => rfl
    | succ n ih =>
        intro pos
        have hblank : isJsonBlank ' ' = true := rfl
        have hsize : ' '.utf8Size = 1 := rfl
        rw [List.replicate_succ, List.cons_append, skipBlanks, if_pos hblank, ih, byteLength_cons,
          hsize, Nat.add_assoc]
  have hblank : isJsonBlank '\n' = true := rfl
  have hsize : '\n'.utf8Size = 1 := rfl
  unfold newLine
  rw [List.cons_append, skipBlanks, if_pos hblank, hspaces, byteLength_cons, hsize, Nat.add_assoc]

/-! ## Strings -/

/-- What a character is written as: itself, an escape of one letter, or one of four digits. -/
inductive Written (c : Char) : List Char → Prop
  | raw : c ≠ '"' → c ≠ '\\' → ¬ c.toNat < 32 → Written c [c]
  | letter {e : Char} : e ≠ 'u' → e.utf8Size = 1 → escaped? e = some c → Written c ['\\', e]
  | digits {a b : Char} {i j : Nat} : Text.hexValue? a = some i → Text.hexValue? b = some j →
      a.utf8Size = 1 → b.utf8Size = 1 → c = Char.ofNat (i * 16 + j) → i < 2 → j < 16 →
      Written c ['\\', 'u', '0', '0', a, b]

/-- The four digits of a control character. -/
theorem digits_of_lt : ∀ n < 32,
    List.replicate (4 - (Text.hexDigits n).length) '0' ++ Text.hexDigits n
      = ['0', '0', (n / 16).digitChar, (n % 16).digitChar] := by decide

theorem hexValue?_digitChar :
    ∀ n < 16, Text.hexValue? n.digitChar = some n ∧ n.digitChar.utf8Size = 1 := by decide

theorem written_stringChar (c : Char) : Written c (stringChar c) := by
  unfold stringChar
  -- Seven characters have a letter of their own: the quote, the backslash and five controls.
  iterate 7
    split
    · rename_i hc
      rw [hc]
      exact .letter (by decide) rfl rfl
  split
  · rename_i hc
    have hhigh := hexValue?_digitChar (c.toNat / 16) (by omega)
    have hlow := hexValue?_digitChar (c.toNat % 16) (Nat.mod_lt _ (by decide))
    dsimp only
    rw [List.append_assoc, digits_of_lt c.toNat hc]
    refine .digits hhigh.1 hlow.1 hhigh.2 hlow.2 ?_ (by omega) (Nat.mod_lt _ (by decide))
    rw [Nat.div_add_mod']
    exact (Char.ofNat_toNat c).symm
  · exact .raw ‹_› ‹_› ‹_›

variable {chars : List Char} {size : Nat}

theorem Written.byteLength_pos (h : Written c chars) : 0 < byteLength chars := by
  have hne : chars ≠ [] := by cases h <;> exact List.cons_ne_nil _ _
  exact Nat.lt_of_lt_of_le (List.length_pos_iff.mpr hne) (length_le_byteLength chars)

theorem ok_bind {ε α β : Type} (a : α) (f : α → Except ε β) : (.ok a >>= f) = f a := rfl

theorem scanHex_digits {a b : Char} {i j : Nat} (ha : Text.hexValue? a = some i)
    (hb : Text.hexValue? b = some j) (hsize : pos + 4 ≤ size) :
    scanHex size pos ('0' :: '0' :: a :: b :: cs) = .ok (i * 16 + j, ⟨pos + 4, cs⟩) := by
  have hzero : Text.hexValue? '0' = some 0 := rfl
  unfold scanHex
  rw [if_neg (by omega)]
  simp [ha, hb, hzero]

/-- An escape of four digits is read as the character of its number. -/
theorem scanNumbered_digits {a b : Char} {i j : Nat} (ha : Text.hexValue? a = some i)
    (hb : Text.hexValue? b = some j) (hi : i < 2) (hj : j < 16) (hsize : pos + 4 ≤ size) :
    scanNumbered size pos ('0' :: '0' :: a :: b :: cs)
      = .ok (Char.ofNat (i * 16 + j), ⟨pos + 4, cs⟩) := by
  unfold scanNumbered
  rw [scanHex_digits ha hb hsize, ok_bind]
  dsimp only
  -- The number is too small for a surrogate.
  rw [if_neg (by omega), if_neg (by omega)]

/-- A reader of strings takes in one step what a character is written as. -/
theorem Written.scanString (h : Written c chars) (hsize : pos + byteLength chars ≤ size) :
    scanString size (fuel + 1) pos done (chars ++ cs)
      = scanString size fuel (pos + byteLength chars) (c :: done) cs := by
  cases h with
  | raw hquote hslash hcontrol =>
    rw [List.singleton_append, Json.scanString.eq_def]
    dsimp only
    rw [if_neg hquote, if_neg hslash, if_neg hcontrol]
    rfl
  | @letter e hu he hescaped =>
    have hlength : byteLength ['\\', e] = 2 := by simp [byteLength, he]; rfl
    rw [hlength, List.cons_append, List.singleton_append, Json.scanString.eq_def]
    simp [hescaped]
  | @digits a b i j ha hb hasize hbsize hc hi hj =>
    have hlength : byteLength ['\\', 'u', '0', '0', a, b] = 6 := by
      simp [byteLength, hasize, hbsize]; rfl
    rw [hlength] at hsize ⊢
    have hread : scanNumbered size (pos + 2) ('0' :: '0' :: a :: b :: cs)
        = .ok (Char.ofNat (i * 16 + j), ⟨pos + 2 + 4, cs⟩) :=
      scanNumbered_digits ha hb hi hj (by omega)
    rw [Json.scanString.eq_def]
    simp [hread, ok_bind, hc]

/-- A skipper of strings takes it in one step as well. -/
theorem Written.skipString (h : Written c chars) (hsize : pos + byteLength chars ≤ size) :
    skipString size (fuel + 1) pos (chars ++ cs)
      = skipString size fuel (pos + byteLength chars) cs := by
  cases h with
  | raw hquote hslash hcontrol =>
    rw [List.singleton_append, Json.skipString.eq_def]
    dsimp only
    rw [if_neg hquote, if_neg hslash, if_neg hcontrol]
    rfl
  | @letter e hu he hescaped =>
    have hlength : byteLength ['\\', e] = 2 := by simp [byteLength, he]; rfl
    rw [hlength, List.cons_append, List.singleton_append, Json.skipString.eq_def]
    simp [hescaped]
  | @digits a b i j ha hb hasize hbsize hc hi hj =>
    have hlength : byteLength ['\\', 'u', '0', '0', a, b] = 6 := by
      simp [byteLength, hasize, hbsize]; rfl
    rw [hlength] at hsize ⊢
    have hread : scanHex size (pos + 2) ('0' :: '0' :: a :: b :: cs)
        = .ok (i * 16 + j, ⟨pos + 2 + 4, cs⟩) := scanHex_digits ha hb (by omega)
    rw [Json.skipString.eq_def]
    simp [hread, ok_bind]

/-- What the characters of a string are written as. -/
def written (cs : List Char) : List Char := cs.flatMap stringChar

theorem written_cons : written (c :: cs) = stringChar c ++ written cs := List.flatMap_cons

theorem length_le_written (cs : List Char) : cs.length ≤ byteLength (written cs) := by
  induction cs with
  | nil => exact Nat.le_refl 0
  | cons c cs ih =>
    have hpos := (written_stringChar c).byteLength_pos
    rw [written_cons, byteLength_append, List.length_cons]
    omega

/-- A string is read back to its closing quote. -/
theorem scanString_written (hsize : pos + byteLength (written cs) ≤ size)
    (hfuel : cs.length < fuel) :
    scanString size fuel pos done (written cs ++ '"' :: tail)
      = .ok (String.ofList (done.reverse ++ cs), ⟨pos + byteLength (written cs) + 1, tail⟩) := by
  induction cs generalizing fuel pos done with
  | nil =>
    obtain ⟨fuel, rfl⟩ := Nat.exists_eq_succ_of_ne_zero (Nat.ne_zero_of_lt hfuel)
    simp [written, byteLength, scanString]
  | cons c cs ih =>
    obtain ⟨fuel, rfl⟩ := Nat.exists_eq_succ_of_ne_zero (Nat.ne_zero_of_lt hfuel)
    rw [written_cons, byteLength_append] at hsize ⊢
    rw [List.append_assoc, (written_stringChar c).scanString (by omega),
      ih (by omega) (Nat.lt_of_succ_lt_succ hfuel), List.reverse_cons, List.append_assoc,
      List.singleton_append, Nat.add_assoc pos]

/-- A string is skipped to its closing quote. -/
theorem skipString_written (hsize : pos + byteLength (written cs) ≤ size)
    (hfuel : cs.length < fuel) :
    skipString size fuel pos (written cs ++ '"' :: tail)
      = .ok ⟨pos + byteLength (written cs) + 1, tail⟩ := by
  induction cs generalizing fuel pos with
  | nil =>
    obtain ⟨fuel, rfl⟩ := Nat.exists_eq_succ_of_ne_zero (Nat.ne_zero_of_lt hfuel)
    simp [written, byteLength, skipString]
  | cons c cs ih =>
    obtain ⟨fuel, rfl⟩ := Nat.exists_eq_succ_of_ne_zero (Nat.ne_zero_of_lt hfuel)
    rw [written_cons, byteLength_append] at hsize ⊢
    rw [List.append_assoc, (written_stringChar c).skipString (by omega),
      ih (by omega) (Nat.lt_of_succ_lt_succ hfuel), Nat.add_assoc pos]

theorem stringChars_append (s : String) (tail : List Char) :
    stringChars s ++ tail = '"' :: (written s.toList ++ '"' :: tail) := by
  simp [stringChars, written]

/-- **A string is read as it was printed**, from after its opening quote. -/
theorem readString_written {s : String}
    (h : Within extent pos ('"' :: (written s.toList ++ '"' :: tail))) :
    ∃ pos', readString extent (pos + 1) (written s.toList ++ '"' :: tail) = .ok (.ok s, ⟨pos', tail⟩)
      ∧ Within extent pos' tail := by
  have hinner := h.next rfl
  have hend := hinner.append.next rfl
  have hle := hinner.le
  rw [byteLength_append] at hle
  have hlength := length_le_written s.toList
  -- A string is skipped as well as read, and here no stray byte mars what was read.
  have hmarred : ∀ first last, extent.isMarred first last = false := by
    intro first last
    rw [Extent.isMarred, h.strays]
    rfl
  refine ⟨_, ?_, hend⟩
  unfold readString
  dsimp only
  rw [scanString_written (by omega) (by omega), skipString_written (by omega) (by omega)]
  simp [hmarred]

/-! ## Values -/

/-- A value without numbers. -/
inductive Plain : Json → Prop
  | null : Plain .null
  | bool (b : Bool) : Plain (.bool b)
  | string (s : String) : Plain (.string s)
  | array {items : List Json} : (∀ v ∈ items, Plain v) → Plain (.array items)
  | object {fields : Fields} : (∀ f ∈ fields, Plain f.2) → Plain (.object fields)

/-- A draft is a value that was read whole, wherever its containers start. -/
inductive Shows : Json → Draft → Prop
  | null : Shows .null .null
  | bool (b : Bool) : Shows (.bool b) (.bool b)
  | string (s : String) : Shows (.string s) (.string (.ok s))
  | array {items : List Json} {drafts : List (Nat × Draft)} (start : Nat) :
      List.Forall₂ (fun v d => Shows v d.2) items drafts →
      Shows (.array items) (.array start drafts none)
  | object {fields : Fields} {drafts : List (Except Fault String × Draft)} (start : Nat) :
      List.Forall₂ (fun f d => d.1 = .ok f.1) fields drafts →
      List.Forall₂ (fun f d => Shows f.2 d.2) fields drafts →
      Shows (.object fields) (.object start drafts none)

/-- A value is read from its indented text, whatever comes after it. -/
def Printed (extent : Extent) (v : Json) : Prop :=
  ∀ {level fuel pos : Nat} {tail : List Char}, Within extent pos (prettyChars level v ++ tail) →
    2 * (prettyChars level v ++ tail).length ≤ fuel →
    ∃ d pos', readDraft extent fuel ⟨pos, prettyChars level v ++ tail⟩ = (d, some ⟨pos', tail⟩)
      ∧ Shows v d ∧ Within extent pos' tail

variable {v : Json} {items : List Json} {fields : Fields} {inner outer : Nat}

/-- No value begins with a blank or a bracket that closes. -/
theorem exists_first (h : Plain v) (level : Nat) :
    ∃ c cs, prettyChars level v = c :: cs ∧ isJsonBlank c = false ∧ c ≠ ']' := by
  cases h with
  | null => exact ⟨'n', _, rfl, rfl, by decide⟩
  | bool b => cases b <;> exact ⟨_, _, rfl, rfl, by decide⟩
  | string s => exact ⟨'"', _, rfl, rfl, by decide⟩
  | @array items _ => cases items <;> exact ⟨'[', _, rfl, rfl, by decide⟩
  | @object fields _ => cases fields <;> exact ⟨'\x7b', _, rfl, rfl, by decide⟩

/-- No value takes up nothing, so there is a step for its first character. -/
theorem exists_step (h : Plain v) (hfuel : 2 * (prettyChars level v ++ tail).length ≤ fuel) :
    ∃ n, fuel = n + 1 := by
  obtain ⟨c, cs, hfirst, -⟩ := exists_first h level
  rw [hfirst, List.cons_append, List.length_cons] at hfuel
  exact Nat.exists_eq_succ_of_ne_zero (by omega)

/-- The next character after a new line, which is no blank. -/
theorem skipBlanks_line (hc : isJsonBlank c = false)
    (h : Within extent pos (newLine level ++ c :: cs)) :
    ∃ pos', skipBlanks pos (newLine level ++ c :: cs) = ⟨pos', c :: cs⟩
      ∧ Within extent pos' (c :: cs) := by
  refine ⟨_, ?_, h.append⟩
  rw [skipBlanks_newLine, skipBlanks_of_not hc]

/-! ## Lines of a container -/

/-- The lines of a container after its first one, each with the comma before it. -/
def moreLines {α : Type} (level : Nat) (line : α → List Char) (as : List α) : List Char :=
  as.flatMap fun a => ',' :: (newLine level ++ line a)

/-- What reads the parts of a container, first or later ones, up to its end. -/
abbrev Lines (β : Type) := Nat → Bool → Rest → List β × Option Break × Option Rest

/-- A line is read as a part of a container, and then the lines after it. -/
structure ReadsLine {β : Type} (extent : Extent) (read : Lines β) (line : List Char)
    (P : β → Prop) : Prop where
  begins : ∃ c cs, line = c :: cs ∧ isJsonBlank c = false
  reads : ∀ {fuel pos : Nat} {rest : List Char}, Within extent pos (line ++ rest) →
    2 * (line ++ rest).length ≤ fuel → ∃ b pos', P b ∧ Within extent pos' rest ∧
      ∀ bs r, read fuel false (skipBlanks pos' rest) = (bs, none, some r) →
        read (fuel + 1) true ⟨pos, line ++ rest⟩ = (b :: bs, none, some r)
          ∧ ∀ before cs, skipBlanks (before + 1) cs = ⟨pos, line ++ rest⟩ →
            read (fuel + 1) false ⟨before, ',' :: cs⟩ = (b :: bs, none, some r)

section Lines

variable {α β : Type} {read : Lines β} {close : Char} {R : α → β → Prop}
  {a : α} {as : List α}

/-- The lines after the first are read to the end of the container. -/
theorem read_moreLines (line : α → List Char)
    (hclose : ∀ fuel pos tail, read (fuel + 1) false ⟨pos, close :: tail⟩
      = ([], none, some ⟨pos + 1, tail⟩))
    (hsize : close.utf8Size = 1) (hblank : isJsonBlank close = false)
    (hlines : ∀ a ∈ as, ReadsLine extent read (line a) (R a))
    (h : Within extent pos (moreLines inner line as ++ (newLine outer ++ close :: tail)))
    (hfuel : 2 * (moreLines inner line as ++ (newLine outer ++ close :: tail)).length < fuel) :
    ∃ bs pos', read fuel false
        (skipBlanks pos (moreLines inner line as ++ (newLine outer ++ close :: tail)))
          = (bs, none, some ⟨pos', tail⟩)
      ∧ List.Forall₂ R as bs ∧ Within extent pos' tail := by
  induction as generalizing fuel pos with
  | nil =>
    obtain ⟨fuel, rfl⟩ := Nat.exists_eq_succ_of_ne_zero (Nat.ne_zero_of_lt hfuel)
    obtain ⟨pos', hskip, hend⟩ := skipBlanks_line hblank h
    have hnone : moreLines inner line [] ++ (newLine outer ++ close :: tail)
        = newLine outer ++ close :: tail := rfl
    refine ⟨[], pos' + 1, ?_, .nil, hend.next hsize⟩
    rw [hnone, hskip]
    exact hclose fuel pos' tail
  | cons a as ih =>
    obtain ⟨fuel, rfl⟩ := Nat.exists_eq_succ_of_ne_zero (Nat.ne_zero_of_lt hfuel)
    have ha := hlines a List.mem_cons_self
    obtain ⟨c, cs, hfirst, hc⟩ := ha.begins
    -- The comma is followed by a line that begins with no blank, and by the lines that are left.
    have hcons : moreLines inner line (a :: as) ++ (newLine outer ++ close :: tail)
        = ',' :: (newLine inner ++ (line a
          ++ (moreLines inner line as ++ (newLine outer ++ close :: tail)))) := by
      simp [moreLines]
    rw [hcons] at h hfuel ⊢
    have hline := h.next rfl
    rw [hfirst, List.cons_append] at hline
    obtain ⟨pos₁, hskip, hstart⟩ := skipBlanks_line hc hline
    rw [← List.cons_append, ← hfirst] at hskip hstart
    simp only [List.length_cons, List.length_append] at hfuel
    obtain ⟨b, pos₂, hb, hrest, hread⟩ := ha.reads hstart
      (show _ ≤ fuel by simp only [List.length_cons, List.length_append]; omega)
    obtain ⟨bs, pos₃, hmore, hall, htail⟩ :=
      ih (fun a' ha' => hlines a' (List.mem_cons_of_mem a ha')) hrest
        (show _ < fuel by simp only [List.length_cons, List.length_append]; omega)
    refine ⟨b :: bs, pos₃, ?_, .cons hb hall, htail⟩
    rw [skipBlanks_of_not rfl]
    exact (hread bs _ hmore).2 pos _ hskip

/-- The lines of a container are read to its end. -/
theorem read_lines (line : α → List Char)
    (hclose : ∀ fuel pos tail, read (fuel + 1) false ⟨pos, close :: tail⟩
      = ([], none, some ⟨pos + 1, tail⟩))
    (hsize : close.utf8Size = 1) (hblank : isJsonBlank close = false)
    (hlines : ∀ b ∈ a :: as, ReadsLine extent read (line b) (R b))
    (h : Within extent pos (newLine inner ++ (line a
      ++ (moreLines inner line as ++ (newLine outer ++ close :: tail)))))
    (hfuel : 2 * (newLine inner ++ (line a
      ++ (moreLines inner line as ++ (newLine outer ++ close :: tail)))).length < fuel) :
    ∃ bs pos', read fuel true (skipBlanks pos (newLine inner ++ (line a
        ++ (moreLines inner line as ++ (newLine outer ++ close :: tail)))))
          = (bs, none, some ⟨pos', tail⟩)
      ∧ List.Forall₂ R (a :: as) bs ∧ Within extent pos' tail := by
  obtain ⟨fuel, rfl⟩ := Nat.exists_eq_succ_of_ne_zero (Nat.ne_zero_of_lt hfuel)
  have ha := hlines a List.mem_cons_self
  obtain ⟨c, cs, hfirst, hc⟩ := ha.begins
  rw [hfirst, List.cons_append] at h
  obtain ⟨pos₁, hskip, hstart⟩ := skipBlanks_line hc h
  rw [← List.cons_append, ← hfirst] at hskip hstart
  simp only [List.length_append] at hfuel
  obtain ⟨b, pos₂, hb, hrest, hread⟩ := ha.reads hstart
    (show _ ≤ fuel by simp only [List.length_append]; omega)
  have hlength : 0 < (line a).length := by simp [hfirst]
  obtain ⟨bs, pos₃, hmore, hall, htail⟩ :=
    read_moreLines line hclose hsize hblank (fun a' ha' => hlines a' (List.mem_cons_of_mem a ha'))
      hrest (show _ < fuel by simp only [List.length_append]; omega)
  refine ⟨b :: bs, pos₃, ?_, .cons hb hall, htail⟩
  rw [hskip]
  exact (hread bs _ hmore).1

end Lines

/-! ## Arrays -/

theorem prettyItems_cons (level : Nat) (v : Json) (items : List Json) :
    prettyItems level (v :: items)
      = prettyChars level v ++ moreLines level (prettyChars level) items := by
  induction items generalizing v with
  | nil => simp [prettyItems, moreLines]
  | cons w items ih =>
    rw [prettyItems, ih]
    simp [moreLines]

/-- An item is a line of its array. -/
theorem readsLine_item (hplain : Plain v) (h : Printed extent v) (level : Nat) :
    ReadsLine extent (readItems extent) (prettyChars level v) fun d => Shows v d.2 := by
  obtain ⟨c, cs, hfirst, hblank, hbracket⟩ := exists_first hplain level
  refine ⟨⟨c, cs, hfirst, hblank⟩, fun {fuel pos rest} hin hfuel => ?_⟩
  obtain ⟨d, pos', hread, hshows, hrest⟩ := h hin hfuel
  refine ⟨(pos, d), pos', hshows, hrest, fun bs r hmore => ⟨?_, fun before cs hskip => ?_⟩⟩
  · rw [hfirst, List.cons_append] at hread ⊢
    rw [readItems.eq_def]
    simp [hread, hmore]
  · rw [readItems.eq_def]
    simp [hskip, hread, hmore]

/-- An empty container leaves a step for its second bracket. -/
theorem exists_bracket {c c' : Char} (hfuel : 2 * ([c, c'] ++ tail).length ≤ fuel + 1) :
    ∃ n, fuel = n + 1 := by
  simp only [List.length_append, List.length_cons] at hfuel
  exact Nat.exists_eq_succ_of_ne_zero (by omega)

/-- An array is read if its items are, the first after the bracket and the others after commas. -/
theorem Printed.array (hplain : ∀ v ∈ items, Plain v) (h : ∀ v ∈ items, Printed extent v) :
    Printed extent (.array items) := by
  intro level fuel pos tail hin hfuel
  obtain ⟨fuel, rfl⟩ := exists_step (.array hplain) hfuel
  cases items with
  | nil =>
    obtain ⟨fuel, rfl⟩ := exists_bracket hfuel
    exact ⟨.array pos [] none, _, rfl, .array pos .nil, hin.append⟩
  | cons v items =>
    have htext : prettyChars level (.array (v :: items)) ++ tail
        = '[' :: (newLine (level + 1) ++ (prettyChars (level + 1) v
          ++ (moreLines (level + 1) (prettyChars (level + 1)) items
            ++ (newLine level ++ ']' :: tail)))) := by
      simp [prettyChars, prettyItems_cons]
    rw [htext] at hin hfuel ⊢
    rw [List.length_cons] at hfuel
    obtain ⟨ds, pos', hread, hall, hrest⟩ :=
      read_lines (prettyChars (level + 1)) (fun _ _ _ => rfl) rfl rfl
        (fun w hw => readsLine_item (hplain w hw) (h w hw) (level + 1)) (hin.next rfl)
        (show _ < fuel by omega)
    refine ⟨.array pos ds none, pos', ?_, .array pos hall, hrest⟩
    rw [readDraft.eq_def]
    simp [hread]

/-! ## Objects -/

/-- A field as it is printed. -/
def fieldLine (level : Nat) (f : String × Json) : List Char :=
  stringChars f.1 ++ ':' :: ' ' :: prettyChars level f.2

theorem prettyFields_cons (level : Nat) (f : String × Json) (fields : Fields) :
    prettyFields level (f :: fields)
      = fieldLine level f ++ moreLines level (fieldLine level) fields := by
  induction fields generalizing f with
  | nil => simp [prettyFields, moreLines, fieldLine]
  | cons g fields ih =>
    rw [prettyFields, ih]
    simp [moreLines, fieldLine]

/-- A field is a line of its object. -/
theorem readsLine_field {f : String × Json} (hplain : Plain f.2) (h : Printed extent f.2)
    (level : Nat) :
    ReadsLine extent (readFields extent) (fieldLine level f)
      fun d => d.1 = .ok f.1 ∧ Shows f.2 d.2 := by
  refine ⟨⟨'"', _, rfl, rfl⟩, fun {fuel pos rest} hin hfuel => ?_⟩
  obtain ⟨c, cs, hfirst, hblank, -⟩ := exists_first hplain level
  have hline : fieldLine level f ++ rest
      = '"' :: (written f.1.toList ++ '"' :: ':' :: ' ' :: (prettyChars level f.2 ++ rest)) := by
    simp [fieldLine, stringChars, written]
  rw [hline] at hin hfuel ⊢
  obtain ⟨pos₁, hname, hcolon⟩ := readString_written hin
  have hvalue : Within extent (pos₁ + 1 + 1) (prettyChars level f.2 ++ rest) := (hcolon.next rfl).next rfl
  have hskip : skipBlanks (pos₁ + 1) (' ' :: (prettyChars level f.2 ++ rest))
      = ⟨pos₁ + 1 + 1, prettyChars level f.2 ++ rest⟩ := by
    have hspace : isJsonBlank ' ' = true := rfl
    rw [skipBlanks, if_pos hspace, hfirst, List.cons_append, skipBlanks_of_not hblank]
  have hnone : skipBlanks pos₁ (':' :: ' ' :: (prettyChars level f.2 ++ rest))
      = ⟨pos₁, ':' :: ' ' :: (prettyChars level f.2 ++ rest)⟩ := skipBlanks_of_not rfl
  simp only [List.length_cons, List.length_append] at hfuel
  obtain ⟨d, pos₂, hread, hshows, hrest⟩ := h hvalue
    (show _ ≤ fuel by simp only [List.length_append]; omega)
  refine ⟨(.ok f.1, d), pos₂, ⟨rfl, hshows⟩, hrest, fun bs r hmore => ⟨?_, fun before cs hstart => ?_⟩⟩
  · rw [readFields.eq_def]
    simp [hname, hnone, hskip, hread, hmore]
  · rw [readFields.eq_def]
    simp [hstart, hname, hnone, hskip, hread, hmore]

/-- An object is read if the values of its fields are. -/
theorem Printed.object (hplain : ∀ f ∈ fields, Plain f.2)
    (h : ∀ f ∈ fields, Printed extent f.2) : Printed extent (.object fields) := by
  intro level fuel pos tail hin hfuel
  obtain ⟨fuel, rfl⟩ := exists_step (.object hplain) hfuel
  cases fields with
  | nil =>
    obtain ⟨fuel, rfl⟩ := exists_bracket hfuel
    exact ⟨.object pos [] none, _, rfl, .object pos .nil .nil, hin.append⟩
  | cons f fields =>
    have htext : prettyChars level (.object (f :: fields)) ++ tail
        = '\x7b' :: (newLine (level + 1) ++ (fieldLine (level + 1) f
          ++ (moreLines (level + 1) (fieldLine (level + 1)) fields
            ++ (newLine level ++ '\x7d' :: tail)))) := by
      simp [prettyChars, prettyFields_cons]
    rw [htext] at hin hfuel ⊢
    rw [List.length_cons] at hfuel
    obtain ⟨ds, pos', hread, hall, hrest⟩ :=
      read_lines (fieldLine (level + 1)) (fun _ _ _ => rfl) rfl rfl
        (fun g hg => readsLine_field (hplain g hg) (h g hg) (level + 1)) (hin.next rfl)
        (show _ < fuel by omega)
    refine ⟨.object pos ds none, pos', ?_, .object pos (hall.imp fun _ _ h => h.1)
      (hall.imp fun _ _ h => h.2), hrest⟩
    rw [readDraft.eq_def]
    simp [hread]

/-! ## Reading back -/

/-- **A value without numbers is read from its indented text**, by induction on the value: an atom is
its word or string, a container is read line by line. -/
theorem printed_of_plain (h : Plain v) : Printed extent v := by
  induction h with
  | null =>
    intro level fuel pos tail hin hfuel
    obtain ⟨fuel, rfl⟩ := exists_step .null hfuel
    exact ⟨.null, _, rfl, .null, hin.append⟩
  | bool b =>
    intro level fuel pos tail hin hfuel
    obtain ⟨fuel, rfl⟩ := exists_step (.bool b) hfuel
    cases b <;> exact ⟨.bool _, _, rfl, .bool _, hin.append⟩
  | string s =>
    intro level fuel pos tail hin hfuel
    obtain ⟨fuel, rfl⟩ := exists_step (.string s) hfuel
    have htext : prettyChars level (.string s) ++ tail
        = '"' :: (written s.toList ++ '"' :: tail) := stringChars_append s tail
    rw [htext] at hin ⊢
    obtain ⟨pos', hread, hrest⟩ := readString_written hin
    refine ⟨.string (.ok s), pos', ?_, .string s, hrest⟩
    rw [readDraft.eq_def]
    simp [hread]
  | array hplain ih => exact Printed.array hplain ih
  | object hplain ih => exact Printed.object hplain ih

/-- **The text of a file of a value without numbers is that value as a whole.** -/
theorem ofText_fileText (h : Plain v) :
    ∃ start d, Draft.ofText v.fileText = ((start, d), none) ∧ Shows v d := by
  -- A new line ends the file, and nothing but blanks may follow a value.
  have htext : v.fileText.toList = prettyChars 0 v ++ ['\n'] := by
    simp [fileText, pretty, String.toList_append]
  have hin : Within ⟨v.fileText.utf8ByteSize, []⟩ 0 (prettyChars 0 v ++ ['\n']) := by
    refine ⟨rfl, Nat.le_of_eq ?_⟩
    rw [← htext, byteLength_toList, Nat.zero_add]
  obtain ⟨c, cs, hfirst, hblank, -⟩ := exists_first h 0
  obtain ⟨d, pos', hread, hshows, -⟩ := printed_of_plain h hin
    (Nat.le_add_right (2 * (prettyChars 0 v ++ ['\n']).length) 2)
  have hskip : skipBlanks 0 (prettyChars 0 v ++ ['\n']) = ⟨0, prettyChars 0 v ++ ['\n']⟩ := by
    rw [hfirst, List.cons_append, skipBlanks_of_not hblank]
  have hend : (skipBlanks pos' ['\n']).chars = [] := rfl
  refine ⟨0, d, ?_, hshows⟩
  unfold Draft.ofText Draft.ofChars
  rw [htext, hskip]
  dsimp only
  rw [hread]
  simp [hend]

end ApiModels.Json
