import ApiModels.Json.Fault
import ApiModels.Proofs.Segments
import ApiModels.Text.Utf8
import Mathlib.Algebra.GroupWithZero.Nat

/-!
# Offsets of places

A place in a text is a line and a column, both counted from 1, the column in bytes. A line goes up
to its newline, which belongs to it; only the last one may do without.

Bytes and places determine each other: the offset of the place of a byte is the byte, and the byte
at the offset of a place is found there. A newline among the bytes is one among the characters,
since no other character has such a byte. So it does not matter which characters a line holds, a
carriage return at its end included.

Other lines and columns have offsets, too, and these stay within the text. Sums of words start again
at 0 where they do not fit. That takes a column which no text in memory has, and even then an offset
stays in the same bounds.
-/

namespace ApiModels

namespace Text

/-! ## Lines -/

/-- A text is empty, or a line without a newline, or a line with its newline before a text. -/
theorem line_induction {α : Type} (newline : α) {P : List α → Prop} (empty : P [])
    (last : ∀ line, line ≠ [] → newline ∉ line → P line)
    (ended : ∀ line rest, newline ∉ line → P rest → P (line ++ newline :: rest))
    (text : List α) : P text := by
  induction text using cut_induction newline with
  | last text h =>
    by_cases hnil : text = []
    · exact hnil ▸ empty
    · exact last text hnil h
  | more line rest h ih => exact ended line rest h ih

section

variable {α : Type} [DecidableEq α] {newline c : α} {line rest : List α} {lines : List (List α)}

/-- The lines of a text, each with the newline that ends it. -/
def fullLines (newline : α) : List α → List (List α)
  | [] => []
  | c :: rest =>
    if c = newline then [c] :: fullLines newline rest
    else match fullLines newline rest with
      | [] => [[c]]
      | line :: lines => (c :: line) :: lines

theorem fullLines_cons (hc : c ≠ newline) (h : fullLines newline rest = line :: lines) :
    fullLines newline (c :: rest) = (c :: line) :: lines := by
  rw [fullLines, if_neg hc, h]

/-- A line ends with its newline. -/
theorem fullLines_append (h : newline ∉ line) (rest : List α) :
    fullLines newline (line ++ newline :: rest)
      = (line ++ [newline]) :: fullLines newline rest := by
  induction line with
  | nil => exact if_pos rfl
  | cons c line ih =>
    rw [List.mem_cons, not_or] at h
    exact fullLines_cons (Ne.symm h.1) (ih h.2)

/-- What follows the last newline is a line, unless it is empty. -/
theorem fullLines_last (hne : line ≠ []) (h : newline ∉ line) :
    fullLines newline line = [line] := by
  induction line with
  | nil => exact absurd rfl hne
  | cons c line ih =>
    rw [List.mem_cons, not_or] at h
    by_cases hnil : line = []
    · rw [hnil, fullLines, if_neg (Ne.symm h.1)]
      rfl
    · exact fullLines_cons (Ne.symm h.1) (ih hnil h.2)

/-- Nothing is lost between lines. -/
theorem flatten_fullLines (newline : α) (text : List α) :
    (fullLines newline text).flatten = text := by
  induction text using line_induction newline with
  | empty => rfl
  | last line hne h => rw [fullLines_last hne h, List.flatten_singleton]
  | ended line rest h ih =>
    rw [fullLines_append h, List.flatten_cons, ih, List.append_assoc, List.singleton_append]

end

/-! ## Newlines among bytes -/

/-- No character but the newline has a byte that is one. -/
theorem newline_mem_utf8EncodeChar {c : Char} (h : 10 ∈ String.utf8EncodeChar c) : c = '\n' := by
  have hbyte : ∀ n : Nat, n < 256 → (10 = UInt8.ofNat n ↔ n = 10) := by
    intro n hn
    rw [← UInt8.toNat_inj, UInt8.toNat_ofNat_of_lt' hn]
    exact eq_comm
  have hc : c.val.toNat = 10 := by
    unfold String.utf8EncodeChar at h
    dsimp only at h
    split_ifs at h with h1 h2 h3
    · rwa [List.mem_singleton, hbyte _ (by omega)] at h
    -- the bytes of a character that takes several are all larger
    all_goals
      simp only [List.mem_cons, List.not_mem_nil, or_false] at h
      repeat rw [hbyte _ (by omega)] at h
      omega
  exact Char.ext (UInt32.toNat_inj.mp hc)

theorem notMem_bytes {cs : List Char} (h : '\n' ∉ cs) : 10 ∉ cs.flatMap String.utf8EncodeChar := by
  intro hmem
  obtain ⟨c, hc, hbyte⟩ := List.mem_flatMap.mp hmem
  exact h (newline_mem_utf8EncodeChar hbyte ▸ hc)

/-- The lines of the bytes of a text are the bytes of its lines. -/
theorem fullLines_bytes (cs : List Char) :
    fullLines 10 (cs.flatMap String.utf8EncodeChar)
      = (fullLines '\n' cs).map fun line => line.flatMap String.utf8EncodeChar := by
  induction cs using line_induction '\n' with
  | empty => rfl
  | last line hne h =>
    have hbytes : line.flatMap String.utf8EncodeChar ≠ [] := by
      obtain ⟨c, cs, rfl⟩ := List.exists_cons_of_ne_nil hne
      simp [String.utf8EncodeChar_ne_nil]
    rw [fullLines_last hne h, fullLines_last hbytes (notMem_bytes h), List.map_singleton]
  | ended line rest h ih =>
    have hnewline : String.utf8EncodeChar '\n' = [10] := by decide
    rw [fullLines_append h, List.map_cons, List.flatMap_append, List.flatMap_cons, hnewline,
      List.singleton_append, fullLines_append (notMem_bytes h), ih, List.flatMap_append,
      List.flatMap_singleton, hnewline]

theorem toByteArray_toUtf8 (s : String) : (toUtf8 s).toByteArray = s.toByteArray :=
  String.utf8Encode_toList

theorem length_toUtf8 (s : String) : (toUtf8 s).length = s.utf8ByteSize := by
  rw [← List.size_toByteArray, toByteArray_toUtf8, String.size_toByteArray]

theorem toUtf8_ofList (cs : List Char) :
    toUtf8 (String.ofList cs) = cs.flatMap String.utf8EncodeChar := by
  rw [toUtf8, String.toList_ofList]

/-- `ByteArray.toList` collects bytes from the left. -/
theorem toList_loop (bytes : ByteArray) (i : Nat) (read : List UInt8) :
    ByteArray.toList.loop bytes i read = read.reverse ++ bytes.data.toList.drop i := by
  fun_induction ByteArray.toList.loop bytes i read with
  | case1 i read hlt ih =>
    have hi : i < bytes.data.toList.length := by simpa using hlt
    rw [ih, List.drop_eq_getElem_cons hi]
    simp [ByteArray.get!, hlt]
  | case2 i read hge =>
    rw [List.drop_eq_nil_of_le (by simpa using hge), List.append_nil]

theorem toList_toUTF8 (s : String) : s.toUTF8.toList = toUtf8 s := by
  rw [ByteArray.toList, toList_loop, List.reverse_nil, List.nil_append, List.drop_zero,
    String.toUTF8_eq_toByteArray, ← toByteArray_toUtf8, List.toList_data_toByteArray]

end Text

namespace Json

open Text (fullLines toUtf8)

variable {text line rest : List UInt8} {n c p : Nat}

/-! ## Places of bytes -/

/-- The line of a byte, counted from 1: one more than the newlines before it. -/
def lineOf (text : List UInt8) (p : Nat) : Nat := (text.take p).count 10 + 1

/-- The column of a byte, counted from 1: one more than the bytes between it and the newline before
it, or the start of the text. -/
def columnOf (text : List UInt8) (p : Nat) : Nat :=
  ((text.take p).reverse.takeWhile (· ≠ 10)).length + 1

theorem one_le_lineOf (text : List UInt8) (p : Nat) : 1 ≤ lineOf text p := Nat.le_add_left 1 _

theorem one_le_columnOf (text : List UInt8) (p : Nat) : 1 ≤ columnOf text p := Nat.le_add_left 1 _

/-- Places in the first line. -/
theorem place_of_le (hstart : line <+: text) (hline : 10 ∉ line) (hp : p ≤ line.length) :
    lineOf text p = 1 ∧ columnOf text p = p + 1 := by
  obtain ⟨rest, rfl⟩ := hstart
  have htake : (line ++ rest).take p = line.take p := List.take_append_of_le_length hp
  have hfree : 10 ∉ line.take p := fun h => hline (List.mem_of_mem_take h)
  have hwhole : (line.take p).reverse.takeWhile (· ≠ 10) = (line.take p).reverse := by
    refine List.takeWhile_eq_self_iff.mpr fun b hb => decide_eq_true ?_
    rintro rfl
    exact hfree (List.mem_reverse.mp hb)
  constructor
  · rw [lineOf, htake, List.count_eq_zero_of_not_mem hfree]
  · rw [columnOf, htake, hwhole, List.length_reverse, List.length_take, Nat.min_eq_left hp]

/-- Behind the first line, places are those of the rest. -/
theorem place_of_add (hline : 10 ∉ line) (rest : List UInt8) (q : Nat) :
    lineOf (line ++ 10 :: rest) (line.length + 1 + q) = lineOf rest q + 1
      ∧ columnOf (line ++ 10 :: rest) (line.length + 1 + q) = columnOf rest q := by
  have htake : (line ++ 10 :: rest).take (line.length + 1 + q) = line ++ 10 :: rest.take q := by
    rw [Nat.add_assoc, List.take_length_add_append, Nat.add_comm 1, List.take_succ_cons]
  have hreverse : (line ++ 10 :: rest.take q).reverse
      = (rest.take q).reverse ++ 10 :: line.reverse := by simp
  constructor
  · rw [lineOf, htake, List.count_append, List.count_cons_self,
      List.count_eq_zero_of_not_mem hline, Nat.zero_add, lineOf]
  · -- counted from its end, the column stops at the newline at the latest
    rw [columnOf, htake, hreverse, List.takeWhile_append, columnOf]
    split
    · rename_i hall
      rw [List.takeWhile_cons_of_neg (by simp), List.append_nil, hall]
    · rfl

/-- A column goes on by one byte, up to the newline. -/
theorem columnOf_succ (hp : p < text.length) :
    columnOf text (p + 1) = if text[p]? = some 10 then 1 else columnOf text p + 1 := by
  rw [columnOf, List.take_succ_eq_append_getElem hp, List.reverse_append, List.reverse_singleton,
    List.singleton_append, List.takeWhile_cons, columnOf, List.getElem?_eq_getElem hp]
  by_cases hbyte : text[p] = 10
  · simp [hbyte]
  · simp [hbyte]

/-! ## Starts of lines -/

/-- What is summed up for an offset are the lengths of the lines. -/
theorem lineLengths_eq (text : List UInt8) :
    lineLengths text = (fullLines 10 text).map List.length := by
  induction text with
  | nil => rfl
  | cons b rest ih =>
    rw [lineLengths.eq_def, fullLines]
    dsimp only
    by_cases hb : b = 10
    · rw [if_pos hb, if_pos hb, ih]
      rfl
    · rw [if_neg hb, if_neg hb, ih]
      cases rest with
      | nil => rfl
      | cons d rest => cases fullLines 10 (d :: rest) <;> rfl

/-- How many bytes come before a line, of which the first one is line 0. -/
def bytesBefore (text : List UInt8) (n : Nat) : Nat := ((lineLengths text).take n).sum

theorem offsetOf_eq {number : Nat} (h : 1 ≤ number) (text : List UInt8) (column : Nat) :
    offsetOf text number column
      = some (min (bytesBefore text (number - 1) + (column - 1)) (text.length - 1)) := by
  obtain ⟨n, rfl⟩ := Nat.exists_eq_add_of_le' h
  rw [Nat.add_sub_cancel, bytesBefore, List.sum_eq_foldl_nat]
  rfl

theorem bytesBefore_zero (text : List UInt8) : bytesBefore text 0 = 0 := rfl

theorem bytesBefore_succ (hline : 10 ∉ line) (n : Nat) :
    bytesBefore (line ++ 10 :: rest) (n + 1) = line.length + 1 + bytesBefore rest n := by
  rw [bytesBefore, lineLengths_eq, Text.fullLines_append hline, List.map_cons,
    List.take_succ_cons, List.sum_cons, List.length_append, List.length_singleton, bytesBefore,
    lineLengths_eq]

/-- No line starts behind the end. -/
theorem bytesBefore_le (text : List UInt8) (n : Nat) : bytesBefore text n ≤ text.length := by
  have hsum : (lineLengths text).sum = text.length := by
    rw [lineLengths_eq, ← List.length_flatten, Text.flatten_fullLines]
  rw [← hsum, ← List.take_append_drop n (lineLengths text), List.sum_append, bytesBefore]
  exact Nat.le_add_right _ _

/-- All bytes come before a line past the end. -/
theorem bytesBefore_of_le (hn : (fullLines 10 text).length ≤ n) :
    bytesBefore text n = text.length := by
  rw [bytesBefore, lineLengths_eq, List.take_of_length_le (by rwa [List.length_map]),
    ← List.length_flatten, Text.flatten_fullLines]

/-! ## Bytes and places -/

/-- A byte is where its line starts and as far behind that as its column says. So is the end of the
text. -/
theorem bytesBefore_place (hp : p ≤ text.length) :
    bytesBefore text (lineOf text p - 1) + (columnOf text p - 1) = p := by
  induction text using Text.cut_induction (10 : UInt8) generalizing p with
  | last text h =>
    obtain ⟨hnumber, hcolumn⟩ := place_of_le List.prefix_rfl h hp
    rw [hnumber, hcolumn, bytesBefore_zero]
    omega
  | more line rest h ih =>
    by_cases hfirst : p ≤ line.length
    · obtain ⟨hnumber, hcolumn⟩ := place_of_le (List.prefix_append line _) h hfirst
      rw [hnumber, hcolumn, bytesBefore_zero]
      omega
    · obtain ⟨q, rfl⟩ : ∃ q, p = line.length + 1 + q := ⟨p - (line.length + 1), by omega⟩
      obtain ⟨hnumber, hcolumn⟩ := place_of_add h rest q
      have hq := ih (p := q) (by rw [List.length_append, List.length_cons] at hp; omega)
      have hpos : lineOf rest q = lineOf rest q - 1 + 1 := rfl
      rw [hnumber, hcolumn, Nat.add_sub_cancel, hpos, bytesBefore_succ h]
      omega

/-- What is found at a column of a line is in the text, in that line and at that column. -/
theorem place_of_line (hline : (fullLines 10 text)[n]? = some line) (hc : c < line.length) :
    bytesBefore text n + c < text.length
      ∧ lineOf text (bytesBefore text n + c) = n + 1
      ∧ columnOf text (bytesBefore text n + c) = c + 1 := by
  induction text using Text.line_induction (10 : UInt8) generalizing n with
  | empty => cases hline
  | last only hne honly =>
    rw [Text.fullLines_last hne honly] at hline
    obtain ⟨rfl, rfl⟩ : n = 0 ∧ only = line := by simpa [List.getElem?_singleton] using hline
    rw [bytesBefore_zero, Nat.zero_add]
    exact ⟨hc, place_of_le List.prefix_rfl honly (Nat.le_of_lt hc)⟩
  | ended first rest hfirst ih =>
    rw [Text.fullLines_append hfirst] at hline
    cases n with
    | zero =>
      obtain rfl : first ++ [10] = line := by simpa using hline
      rw [List.length_append, List.length_singleton] at hc
      rw [bytesBefore_zero, Nat.zero_add]
      refine ⟨?_, place_of_le (List.prefix_append first _) hfirst (by omega)⟩
      rw [List.length_append, List.length_cons]
      omega
    | succ n =>
      obtain ⟨hlt, hnumber, hcolumn⟩ := ih hline
      obtain ⟨hnumber', hcolumn'⟩ := place_of_add hfirst rest (bytesBefore rest n + c)
      rw [bytesBefore_succ hfirst, Nat.add_assoc]
      refine ⟨?_, hnumber'.trans (congrArg (· + 1) hnumber), hcolumn'.trans hcolumn⟩
      rw [List.length_append, List.length_cons]
      omega

/-- The offset of the place of a byte is the byte. -/
theorem offsetOf_place (hp : p < text.length) :
    offsetOf text (lineOf text p) (columnOf text p) = some p := by
  rw [offsetOf_eq (one_le_lineOf text p), bytesBefore_place (Nat.le_of_lt hp)]
  exact congrArg some (Nat.min_eq_left (by omega))

/-- The byte at the offset of a column of a line is found there. -/
theorem exists_offset_of_line (hline : (fullLines 10 text)[n]? = some line) (hc : c < line.length) :
    ∃ p < text.length, offsetOf text (n + 1) (c + 1) = some p
      ∧ lineOf text p = n + 1 ∧ columnOf text p = c + 1 := by
  obtain ⟨hlt, hplace⟩ := place_of_line hline hc
  refine ⟨_, hlt, ?_, hplace⟩
  rw [offsetOf_eq (Nat.le_add_left 1 n), Nat.add_sub_cancel, Nat.add_sub_cancel]
  exact congrArg some (Nat.min_eq_left (by omega))

/-- A line past the end has the offset of the last byte. -/
theorem offsetOf_past {number : Nat} (h : (fullLines 10 text).length < number) (column : Nat) :
    offsetOf text number column = some (text.length - 1) := by
  rw [offsetOf_eq (by omega), bytesBefore_of_le (by omega)]
  exact congrArg some (Nat.min_eq_right (by omega))

/-! ## Sums of words -/

theorem addWords_of_lt {a b : Nat} (h : a + b < 2 ^ 64) : addWords a b = a + b := by
  have hsize : 2 ^ 64 = UInt64.size := by decide
  exact Nat.mod_eq_of_lt (hsize ▸ h)

theorem foldl_addWords {lengths : List Nat} {a : Nat} (h : a + lengths.sum < 2 ^ 64) :
    lengths.foldl addWords a = a + lengths.sum := by
  induction lengths generalizing a with
  | nil => rfl
  | cons n lengths ih =>
    rw [List.sum_cons, ← Nat.add_assoc] at h
    have hfits : a + n < 2 ^ 64 := Nat.lt_of_le_of_lt (Nat.le_add_right _ _) h
    rw [List.foldl_cons, addWords_of_lt hfits, ih h, List.sum_cons, Nat.add_assoc]

/-- Whatever is taken for the sums, no offset is behind the last byte. -/
theorem exists_offsetWith (add : Nat → Nat → Nat) {number : Nat} (h : 1 ≤ number)
    (text : List UInt8) (column : Nat) :
    ∃ offset, offsetWith add text number column = some offset ∧ offset ≤ text.length - 1 := by
  obtain ⟨n, rfl⟩ := Nat.exists_eq_add_of_le' h
  exact ⟨_, rfl, Nat.min_le_right _ _⟩

/-- **Sums that fit in a word give the same offset.** -/
theorem offsetWith_addWords {number column : Nat}
    (h : bytesBefore text (number - 1) + (column - 1) < 2 ^ 64) :
    offsetWith addWords text number column = offsetOf text number column := by
  cases number with
  | zero => rfl
  | succ n =>
    rw [Nat.add_sub_cancel] at h
    have hfits : 0 + bytesBefore text n < 2 ^ 64 := by omega
    have hstart : ((lineLengths text).take n).foldl addWords 0 = bytesBefore text n :=
      (foldl_addWords hfits).trans (Nat.zero_add _)
    rw [offsetOf_eq (Nat.le_add_left 1 n), Nat.add_sub_cancel, offsetWith, hstart,
      addWords_of_lt h]

/-! ## Faults -/

/--
**Where a fault is reported.**

It is the last byte consumed, unless that is a newline. Then it is the byte behind, or the newline
itself if the text ends with it.
-/
theorem Fault.offset?_of_consumed {f : Fault} {source : String}
    (hf : f = .malformed n ∨ f = .truncated n) (hn : n ≤ source.utf8ByteSize) :
    f.offset? source = some (if (toUtf8 source)[n - 1]? = some 10
      then min n (source.utf8ByteSize - 1) else n - 1) := by
  rw [← Text.length_toUtf8] at hn ⊢
  -- what was consumed ends one column before the place of the next byte
  have hoffset : f.offset? source
      = offsetOf (toUtf8 source) (lineOf (toUtf8 source) n) (columnOf (toUtf8 source) n - 1) := by
    rw [← Text.toList_toUTF8]
    rcases hf with rfl | rfl <;> rfl
  have hplace := bytesBefore_place hn
  rw [hoffset, offsetOf_eq (one_le_lineOf _ n)]
  refine congrArg some ?_
  cases n with
  | zero => split <;> omega
  | succ n =>
    have hcolumn := one_le_columnOf (toUtf8 source) n
    rw [columnOf_succ hn] at hplace ⊢
    rw [Nat.add_sub_cancel]
    split_ifs at hplace ⊢
    · omega
    · omega

/-! ## Places and their offsets -/

/--
**Bytes and places of a text.**

The offset of the place of a byte is that byte. All lines and columns have an offset, which is not
behind the last byte, and is 0 if there is none. A column within the bytes of a line of characters
has the offset of a byte that is in that line and at that column. A line past the end has the offset
of the last byte.

If size and column fit in a signed word of 64 bits, the sum in the offset fits in an unsigned one.
Then the offset is the same with the sums of words, so what was said before is true of these. With
sums that start again at 0, too, every line and column has an offset, and it is in the same bounds.
-/
theorem offset_of_place (source : String) :
    (∀ p < source.utf8ByteSize,
        offsetOf (toUtf8 source) (lineOf (toUtf8 source) p) (columnOf (toUtf8 source) p) = some p)
      ∧ (∀ number column, 1 ≤ number → ∃ offset,
        offsetOf (toUtf8 source) number column = some offset
          ∧ (0 : Int) ≤ offset ∧ (offset : Int) ≤ max ((source.utf8ByteSize : Int) - 1) 0)
      ∧ (∀ n line, (fullLines '\n' source.toList)[n]? = some line →
        ∀ c < (String.ofList line).utf8ByteSize, ∃ p < source.utf8ByteSize,
          offsetOf (toUtf8 source) (n + 1) (c + 1) = some p
            ∧ lineOf (toUtf8 source) p = n + 1 ∧ columnOf (toUtf8 source) p = c + 1)
      ∧ (∀ number column, (fullLines '\n' source.toList).length < number →
        offsetOf (toUtf8 source) number column = some (source.utf8ByteSize - 1))
      ∧ (∀ number column, source.utf8ByteSize < 2 ^ 63 → column < 2 ^ 63 →
        bytesBefore (toUtf8 source) (number - 1) + (column - 1) < 2 ^ 64
          ∧ offsetWith addWords (toUtf8 source) number column
            = offsetOf (toUtf8 source) number column)
      ∧ ∀ number column, 1 ≤ number → ∃ offset,
        offsetWith addWords (toUtf8 source) number column = some offset
          ∧ (0 : Int) ≤ offset ∧ (offset : Int) ≤ max ((source.utf8ByteSize : Int) - 1) 0 := by
  have hlines : fullLines 10 (toUtf8 source) = (fullLines '\n' source.toList).map
      fun line => line.flatMap String.utf8EncodeChar := Text.fullLines_bytes source.toList
  have hbounds (add : Nat → Nat → Nat) (number column : Nat) (h : 1 ≤ number) : ∃ offset,
      offsetWith add (toUtf8 source) number column = some offset
        ∧ (0 : Int) ≤ offset ∧ (offset : Int) ≤ max (((toUtf8 source).length : Int) - 1) 0 := by
    obtain ⟨offset, hoffset, hlast⟩ := exists_offsetWith add h (toUtf8 source) column
    exact ⟨offset, hoffset, by omega, by omega⟩
  simp only [← Text.length_toUtf8]
  refine ⟨fun p => offsetOf_place, hbounds (· + ·), fun n line hline c hc => ?_,
    fun number column h => ?_, fun number column hsize hcolumn => ?_, hbounds addWords⟩
  · rw [Text.toUtf8_ofList] at hc
    have hbytes : (fullLines 10 (toUtf8 source))[n]?
        = some (line.flatMap String.utf8EncodeChar) := by
      rw [hlines, List.getElem?_map, hline, Option.map_some]
    exact exists_offset_of_line hbytes hc
  · exact offsetOf_past (by rwa [hlines, List.length_map]) column
  · have hle := bytesBefore_le (toUtf8 source) (number - 1)
    have hsum : bytesBefore (toUtf8 source) (number - 1) + (column - 1) < 2 ^ 64 := by omega
    exact ⟨hsum, offsetWith_addWords hsum⟩

/-- A text with a carriage return, an empty line, a character of two bytes and no newline at its
end; and the last column there can be. -/
theorem offset_of_place_crlf :
    9 < "[\r\n\n\"é\" 1]".utf8ByteSize
      ∧ lineOf (toUtf8 "[\r\n\n\"é\" 1]") 9 = 3 ∧ columnOf (toUtf8 "[\r\n\n\"é\" 1]") 9 = 6
      ∧ offsetOf (toUtf8 "[\r\n\n\"é\" 1]") 3 6 = some 9
      ∧ (∃ offset, offsetOf (toUtf8 "[\r\n\n\"é\" 1]") 1 40 = some offset ∧ (offset : Int) ≤ 10)
      ∧ (fullLines '\n' "[\r\n\n\"é\" 1]".toList)[1]? = some ['\n']
      ∧ (∃ p, offsetOf (toUtf8 "[\r\n\n\"é\" 1]") 2 1 = some p
        ∧ lineOf (toUtf8 "[\r\n\n\"é\" 1]") p = 2 ∧ columnOf (toUtf8 "[\r\n\n\"é\" 1]") p = 1)
      ∧ offsetOf (toUtf8 "[\r\n\n\"é\" 1]") 4 0 = some 10
      ∧ bytesBefore (toUtf8 "[\r\n\n\"é\" 1]") 2 + 5 < 2 ^ 64
      ∧ offsetWith addWords (toUtf8 "[\r\n\n\"é\" 1]") 3 6 = some 9
      ∧ ∃ offset, offsetWith addWords (toUtf8 "[\r\n\n\"é\" 1]") 3 (2 ^ 64 - 1) = some offset
        ∧ (offset : Int) ≤ 10 := by
  obtain ⟨hplace, hrange, hline, hpast, hsum, hwords⟩ := offset_of_place "[\r\n\n\"é\" 1]"
  obtain ⟨offset, hoffset, -, hlast⟩ := hrange 1 40 (by decide)
  obtain ⟨p, -, hfound⟩ := hline 1 ['\n'] (by decide) 0 (by decide)
  obtain ⟨hfits, hsame⟩ := hsum 3 6 (by decide) (by decide)
  obtain ⟨wrapped, hwrapped, -, hbound⟩ := hwords 3 (2 ^ 64 - 1) (by decide)
  have hplace9 : offsetOf (toUtf8 "[\r\n\n\"é\" 1]") 3 6 = some 9 := hplace 9 (by decide)
  exact ⟨by decide, by decide, by decide, hplace9, ⟨offset, hoffset, hlast⟩,
    by decide, ⟨p, hfound⟩, hpast 4 0 (by decide), hfits, hsame.trans hplace9,
    ⟨wrapped, hwrapped, hbound⟩⟩

end Json

end ApiModels
