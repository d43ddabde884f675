import ApiModels.Json.Literal
import ApiModels.Text.Hexadecimal
import ApiModels.Text.Utf8

/-!
# Drafts

A draft is a JSON text read as far as it goes. It has the shape of a value, but any part may be
where the text failed, after which there is nothing more. Reading a draft into a type of the program
walks it in text order, so the first problem in the text is the one reported, whether it is one of
the grammar or of shape.

Parts that nobody asks for are skipped under looser rules: the range of a number and the pairing of
escaped surrogates do not matter there, and a few faults are noticed one byte earlier. A fault
therefore has two readings.

A text may come as bytes of which some belong to no character. Such a byte stands as the replacement
character with its place noted: only in a skipped string does it do no harm.
-/

namespace ApiModels.Json

/-- The fault at the place where a text fails, as noticed when the value is read and when it is
skipped. -/
structure Break where
  reading : Fault
  skipping : Fault
deriving Repr, Inhabited

/-- A fault noticed alike in both cases. -/
def Break.both (f : Fault) : Break := ⟨f, f⟩

/-- A JSON text as far as it goes. Containers say where they start and how they fail to close; a
number may be out of range, and a closed string may have an escape that stands for nothing. -/
inductive Draft where
  | null
  | bool (value : Bool)
  | number (value : Except Fault Number)
  | string (text : Except Fault String)
  | array (start : Nat) (items : List (Nat × Draft)) (failure : Option Break)
  | object (start : Nat) (fields : List (Except Fault String × Draft)) (failure : Option Break)
  | broken (failure : Break)
deriving Inhabited

/-- What is known of a text as a whole. -/
structure Extent where
  /-- Its size in bytes. -/
  size : Nat
  /-- Places of bytes that belong to no character. -/
  strays : List Nat := []

/-- Whether a stray byte stands between two places. -/
def Extent.isMarred (e : Extent) (first last : Nat) : Bool :=
  e.strays.any fun i => first ≤ i && i < last

/-- The rest of a text: bytes consumed so far and what is left. -/
structure Rest where
  pos : Nat
  chars : List Char
deriving Inhabited

/-- Whether a character is one of the four blanks of the grammar. -/
def isJsonBlank (c : Char) : Bool := c = ' ' || c = '\n' || c = '\t' || c = '\r'

/-- Without leading blanks. -/
def skipBlanks (pos : Nat) : List Char → Rest
  | [] => ⟨pos, []⟩
  | c :: rest => if isJsonBlank c then skipBlanks (pos + 1) rest else ⟨pos, c :: rest⟩

/-- The rest after a keyword, whose characters are given without the first. -/
def scanWord : (word : List Char) → (pos : Nat) → List Char → Except Fault Rest
  | [], pos, cs => .ok ⟨pos, cs⟩
  | _ :: _, pos, [] => .error (.truncated pos)
  | w :: word, pos, c :: cs =>
    if w = c then scanWord word (pos + 1) cs else .error (.malformed (pos + 1))

/-! ## Strings -/

/-- Four hexadecimal digits. `size` is the size of the whole text. -/
def scanHex (size pos : Nat) (cs : List Char) : Except Fault (Nat × Rest) :=
  if size < pos + 4 then .error (.truncated size)
  else match cs with
    | a :: b :: c :: d :: rest =>
      match Text.hexValue? a, Text.hexValue? b, Text.hexValue? c, Text.hexValue? d with
      | some a, some b, some c, some d => .ok (((a * 16 + b) * 16 + c) * 16 + d, ⟨pos + 4, rest⟩)
      | _, _, _, _ => .error (.malformed (pos + 4))
    | _ => .error (.malformed (pos + 4))

/-- The character a one-letter escape stands for. -/
def escaped? : Char → Option Char
  | '"' => some '"'
  | '\\' => some '\\'
  | '/' => some '/'
  | 'b' => some '\x08'
  | 'f' => some '\x0c'
  | 'n' => some '\n'
  | 'r' => some '\r'
  | 't' => some '\t'
  | _ => none

/-- The character of a numbered escape, after its `u`. Surrogates must come in pairs. -/
def scanNumbered (size pos : Nat) (cs : List Char) : Except Fault (Char × Rest) := do
  let (n, rest) ← scanHex size pos cs
  if 0xDC00 ≤ n ∧ n ≤ 0xDFFF then .error (.malformed rest.pos)
  else if 0xD800 ≤ n ∧ n ≤ 0xDBFF then
    match rest.chars with
    | [] => .error (.truncated rest.pos)
    | ['\\'] => .error (.truncated (rest.pos + 1))
    | '\\' :: 'u' :: more =>
      let (low, rest) ← scanHex size (rest.pos + 2) more
      if 0xDC00 ≤ low ∧ low ≤ 0xDFFF then
        .ok (Char.ofNat (0x10000 + (n - 0xD800) * 0x400 + (low - 0xDC00)), rest)
      else .error (.malformed rest.pos)
    | '\\' :: _ => .error (.malformed (rest.pos + 2))
    | _ :: _ => .error (.malformed (rest.pos + 1))
  else .ok (Char.ofNat n, rest)

/-- The text of a string, after its opening quote. Each step takes a character, so the size of the
whole text bounds their number. -/
def scanString (size : Nat) : (fuel pos : Nat) → (done : List Char) → List Char →
    Except Fault (String × Rest)
  | 0, pos, _, _ => .error (.truncated pos)
  | _ + 1, pos, _, [] => .error (.truncated pos)
  | fuel + 1, pos, done, c :: cs =>
    if c = '"' then .ok (String.ofList done.reverse, ⟨pos + 1, cs⟩)
    else if c = '\\' then
      match cs with
      | [] => .error (.truncated (pos + 1))
      | 'u' :: more => do
        let (ch, rest) ← scanNumbered size (pos + 2) more
        scanString size fuel rest.pos (ch :: done) rest.chars
      | e :: more =>
        match escaped? e with
        | some ch => scanString size fuel (pos + 2) (ch :: done) more
        | none => .error (.malformed (pos + 2))
    else if c.toNat < 32 then .error (.malformed (pos + 1))
    else scanString size fuel (pos + c.utf8Size) (c :: done) cs

/-- The rest after a string that is skipped, after its opening quote. -/
def skipString (size : Nat) : (fuel pos : Nat) → List Char → Except Fault Rest
  | 0, pos, _ => .error (.truncated pos)
  | _ + 1, pos, [] => .error (.truncated pos)
  | fuel + 1, pos, c :: cs =>
    if c = '"' then .ok ⟨pos + 1, cs⟩
    else if c = '\\' then
      match cs with
      | [] => .error (.truncated (pos + 1))
      | 'u' :: more => do
        let (_, rest) ← scanHex size (pos + 2) more
        skipString size fuel rest.pos rest.chars
      | e :: more =>
        if (escaped? e).isSome then skipString size fuel (pos + 2) more
        else .error (.malformed (pos + 2))
    else if c.toNat < 32 then .error (.malformed pos)
    else skipString size fuel (pos + c.utf8Size) cs

/-- A closed string with its text, or the place where it fails to close. -/
def readString (extent : Extent) (pos : Nat) (cs : List Char) :
    Except Break (Except Fault String × Rest) :=
  let size := extent.size
  let text := scanString size (size + 1) pos [] cs
  match skipString size (size + 1) pos cs, text with
  | .ok rest, .ok (s, _) =>
    .ok (if extent.isMarred pos rest.pos then .error (.malformed rest.pos) else .ok s, rest)
  | .ok rest, .error f => .ok (.error f, rest)
  | .error skipping, .error reading => .error ⟨reading, skipping⟩
  | .error skipping, .ok _ => .error ⟨skipping, skipping⟩

/-! ## Numbers -/

/-- The fault of a missing digit: the byte in its place counts as consumed, and only a reader tells
the end of the text apart. -/
def missingDigit (pos : Nat) (cs : List Char) : Break :=
  if cs.isEmpty then ⟨.truncated pos, .malformed pos⟩ else .both (.malformed (pos + 1))

/-- Leading digits and what follows them. -/
def scanDigits (cs : List Char) : List Char × List Char :=
  (cs.takeWhile Char.isDigit, cs.dropWhile Char.isDigit)

/-- The exponent of a number, if an `e` follows. -/
def scanExponent (pos : Nat) (cs : List Char) :
    Except Break (Option (Bool × List Char) × Rest) :=
  match cs with
  | e :: cs =>
    if e = 'e' ∨ e = 'E' then
      let (minus, pos, cs) := match cs with
        | '+' :: cs => (false, pos + 2, cs)
        | '-' :: cs => (true, pos + 2, cs)
        | cs => (false, pos + 1, cs)
      let (ds, rest) := scanDigits cs
      if ds.isEmpty then .error (missingDigit pos rest)
      else .ok (some (minus, ds), ⟨pos + ds.length, rest⟩)
    else .ok (none, ⟨pos, e :: cs⟩)
  | [] => .ok (none, ⟨pos, []⟩)

/-- A number, after its sign. -/
def readNumber (negative : Bool) (pos : Nat) (cs : List Char) : Except Break (Literal × Rest) := do
  let (whole, rest) := scanDigits cs
  match whole with
  | [] => .error (missingDigit pos rest)
  | '0' :: _ :: _ => .error (.both (.malformed (pos + 2)))
  | _ =>
    let pos := pos + whole.length
    match rest with
    | '.' :: more =>
      let (fraction, rest) := scanDigits more
      if fraction.isEmpty then .error (missingDigit (pos + 1) rest)
      else
        let (exponent, rest) ← scanExponent (pos + 1 + fraction.length) rest
        .ok (⟨negative, whole, some fraction, exponent, rest.pos⟩, rest)
    | _ =>
      let (exponent, rest) ← scanExponent pos rest
      .ok (⟨negative, whole, none, exponent, rest.pos⟩, rest)

/-! ## Values -/

/-- A value that could not be begun. -/
def Draft.missing (f : Fault) : Draft × Option Rest := (.broken (.both f), none)

/-- A keyword, or the place where it goes wrong. -/
def Draft.ofWord (value : Draft) (word : List Char) (pos : Nat) (cs : List Char) :
    Draft × Option Rest :=
  match scanWord word pos cs with
  | .ok rest => (value, some rest)
  | .error f => Draft.missing f

/-- A number, or the place where it goes wrong. -/
def Draft.ofNumber (negative : Bool) (pos : Nat) (cs : List Char) : Draft × Option Rest :=
  match readNumber negative pos cs with
  | .ok (l, rest) => (.number l.value, some rest)
  | .error b => (.broken b, none)

mutual

/-- The value that begins after blanks, with the rest of the text unless it failed in between. Every
step into a value takes a character, so the length of the text bounds the depth. -/
def readDraft (extent : Extent) : (fuel : Nat) → Rest → Draft × Option Rest
  | 0, r => Draft.missing (.truncated r.pos)
  | fuel + 1, ⟨pos, chars⟩ =>
    match chars with
    | [] => Draft.missing (.truncated pos)
    | 'n' :: cs => Draft.ofWord .null ['u', 'l', 'l'] (pos + 1) cs
    | 't' :: cs => Draft.ofWord (.bool true) ['r', 'u', 'e'] (pos + 1) cs
    | 'f' :: cs => Draft.ofWord (.bool false) ['a', 'l', 's', 'e'] (pos + 1) cs
    | '-' :: cs => Draft.ofNumber true (pos + 1) cs
    | '"' :: cs =>
      match readString extent (pos + 1) cs with
      | .ok (text, rest) => (.string text, some rest)
      | .error b => (.broken b, none)
    | '[' :: cs =>
      let (items, failure, rest) := readItems extent fuel true (skipBlanks (pos + 1) cs)
      (.array pos items failure, rest)
    | '\x7b' :: cs =>
      let (fields, failure, rest) := readFields extent fuel true (skipBlanks (pos + 1) cs)
      (.object pos fields failure, rest)
    | c :: cs =>
      if c.isDigit then Draft.ofNumber false pos (c :: cs) else Draft.missing (.malformed (pos + 1))

/-- The items of an array up to its bracket. -/
def readItems (extent : Extent) : (fuel : Nat) → (first : Bool) → Rest →
    List (Nat × Draft) × Option Break × Option Rest
  | 0, _, r => ([], some (.both (.truncated r.pos)), none)
  | fuel + 1, first, ⟨pos, chars⟩ =>
    match chars with
    | ']' :: cs => ([], none, some ⟨pos + 1, cs⟩)
    | [] => ([], some (.both (.truncated pos)), none)
    | c :: cs =>
      if !first && c ≠ ',' then ([], some (.both (.malformed (pos + 1))), none)
      else
        let start := if first then ⟨pos, c :: cs⟩ else skipBlanks (pos + 1) cs
        match readDraft extent fuel start with
        | (item, none) => ([(start.pos, item)], none, none)
        | (item, some rest) =>
          let (items, failure, rest) := readItems extent fuel false (skipBlanks rest.pos rest.chars)
          ((start.pos, item) :: items, failure, rest)

/-- The fields of an object up to its brace. -/
def readFields (extent : Extent) : (fuel : Nat) → (first : Bool) → Rest →
    List (Except Fault String × Draft) × Option Break × Option Rest
  | 0, _, r => ([], some (.both (.truncated r.pos)), none)
  | fuel + 1, first, ⟨pos, chars⟩ =>
    match chars with
    | '\x7d' :: cs => ([], none, some ⟨pos + 1, cs⟩)
    | [] => ([], some (.both (.truncated pos)), none)
    | c :: cs =>
      if !first && c ≠ ',' then ([], some (.both (.malformed (pos + 1))), none)
      else
        let start := if first then ⟨pos, c :: cs⟩ else skipBlanks (pos + 1) cs
        match start.chars with
        | '"' :: cs =>
          match readString extent (start.pos + 1) cs with
          | .error b => ([], some b, none)
          | .ok (name, rest) =>
            let colon := skipBlanks rest.pos rest.chars
            match colon.chars with
            | ':' :: cs =>
              match readDraft extent fuel (skipBlanks (colon.pos + 1) cs) with
              | (value, none) => ([(name, value)], none, none)
              | (value, some rest) =>
                let (fields, failure, rest) :=
                  readFields extent fuel false (skipBlanks rest.pos rest.chars)
                ((name, value) :: fields, failure, rest)
            | cs => ([(name, .broken (.both (.atNext colon.pos cs)))], none, none)
        | cs => ([], some (.both (.atNext start.pos cs)), none)

end

/-- Characters as a draft with the place where it starts, and the fault of anything that follows
it. -/
def Draft.ofChars (extent : Extent) (cs : List Char) : (Nat × Draft) × Option Fault :=
  let start := skipBlanks 0 cs
  match readDraft extent (2 * cs.length + 2) start with
  | (d, none) => ((start.pos, d), none)
  | (d, some rest) =>
    let rest := skipBlanks rest.pos rest.chars
    ((start.pos, d), if rest.chars.isEmpty then none else some (.malformed (rest.pos + 1)))

/-- A text as a draft, as `Draft.ofChars` gives it. -/
def Draft.ofText (text : String) : (Nat × Draft) × Option Fault :=
  Draft.ofChars ⟨text.utf8ByteSize, []⟩ text.toList

/-- What stands for a byte that belongs to no character. -/
def stray : Char := '\ufffd'

/-- Places of the characters that are missing, from `pos` on, each taking up as much as what stands
for it. -/
def strayPlaces (pos : Nat) : List (Option Char) → List Nat
  | [] => []
  | none :: cs => pos :: strayPlaces (pos + stray.utf8Size) cs
  | some c :: cs => strayPlaces (pos + c.utf8Size) cs

/-- Bytes as a draft, as `Draft.ofChars` gives it. -/
def Draft.ofBytes (bytes : List UInt8) : (Nat × Draft) × Option Fault :=
  let loose := Text.looseChars 0 bytes
  let cs := loose.map (·.getD stray)
  Draft.ofChars ⟨(String.ofList cs).utf8ByteSize, strayPlaces 0 loose⟩ cs

end ApiModels.Json
