import ApiModels.Source.Layout
import ApiModels.Text.Pieces

/-!
# Pages

A page writes a layout in one pass. Commands wait in a window until it is known whether their group
fits, or until they are too wide for what is left of the line; then they are written. What counts
for a group is its own width and that of the text which sticks to its end, up to the next break. A
group is measured when the next break after its end comes, so one that is directly followed by
another group counts that one, too.
-/

namespace ApiModels.Source

/-! ## Windows -/

/-- Elements of a row, of which the first ones have been dropped. Places count from the start of the
row. -/
structure Window (α : Type) where
  items : Array α := #[]
  dropped : Nat := 0

namespace Window

variable {α : Type}

/-- Whether nothing is left. -/
def isEmpty (w : Window α) : Bool := w.items.size ≤ w.dropped

/-- Number of elements left. -/
def size (w : Window α) : Nat := w.items.size - w.dropped

/-- The place of the first element. -/
def first? (w : Window α) : Option α := w.items[w.dropped]?

/-- The last element. -/
def last? (w : Window α) : Option α := if w.isEmpty then none else w.items[w.items.size - 1]?

/-- The element before the last. -/
def beforeLast? (w : Window α) : Option α :=
  if w.size < 2 then none else w.items[w.items.size - 2]?

/-- Adds an element at the end. -/
def push (w : Window α) (a : α) : Window α := { w with items := w.items.push a }

/-- The place that the next element will have. -/
def next (w : Window α) : Nat := w.items.size

/-- Drops the first element. -/
def dropFirst (w : Window α) : Window α := { w with dropped := w.dropped + 1 }

/-- Drops the last element. -/
def dropLast (w : Window α) : Window α := { w with items := w.items.pop }

/-- Changes the element at a place. -/
def modify (w : Window α) (i : Nat) (f : α → α) : Window α := { w with items := w.items.modify i f }

end Window

/-! ## Pages -/

/-- What waits to be written. -/
inductive Piece where
  | text (s : String)
  | line (b : Break)
  | opening (offset : Int) (style : BreakStyle)
  | closing
deriving Repr, Inhabited

/-- A piece and its width. A negative width is not known yet: added to the width of everything up to
a later place, it gives the width from the piece to there. -/
structure Waiting where
  piece : Piece
  size : Int
deriving Repr, Inhabited

/-- A group being written: its style and, if it is broken, the indentation around it. -/
structure Frame where
  style : BreakStyle
  outer : Option Int
deriving Repr

/-- A page being written. -/
structure Page where
  /-- What has been written, the last piece first. -/
  written : List String := []
  /-- Columns left on the line. -/
  space : Int := lineWidth
  waiting : Window Waiting := {}
  /-- Width of everything that has been written. -/
  left : Int := 0
  /-- Width of everything that has come in. -/
  right : Int := 0
  /-- Places of waiting breaks and ends of groups whose width is open. -/
  unsized : Window Nat := {}
  /-- Groups being written, the innermost first. -/
  frames : List Frame := []
  /-- Columns by which lines are indented. -/
  indent : Int := 0
  /-- Blanks due before the next text of the line. -/
  pending : Nat := 0

namespace Page

/-! ### Writing -/

/-- Writes the blanks that are due. -/
def settle (p : Page) : Page :=
  if p.pending = 0 then p
  else
    { p with
      written := String.ofList (List.replicate p.pending ' ') :: p.written, pending := 0 }

/-- Writes a text. -/
def writeText (p : Page) (s : String) : Page :=
  let p := p.settle
  { p with written := s :: p.written, space := p.space - s.utf8ByteSize }

/-- Writes a text if there is one. -/
def writeIfAny (p : Page) (s : String) : Page := if s.isEmpty then p else p.writeText s

/-- Begins a group of some width. -/
def writeOpening (p : Page) (offset : Int) (style : BreakStyle) (size : Int) : Page :=
  if p.space < size then
    { p with frames := ⟨style, some p.indent⟩ :: p.frames, indent := p.indent + offset }
  else { p with frames := ⟨style, none⟩ :: p.frames }

/-- Ends a group. -/
def writeClosing (p : Page) : Page :=
  match p.frames with
  | [] => p
  | f :: fs => { p with frames := fs, indent := f.outer.getD p.indent }

/-- Whether a break is taken. `size` is its width and that of the text up to the next break. -/
def takes (p : Page) (b : Break) (size : Int) : Bool :=
  !b.never && match p.frames with
    | [] => decide (p.space < size)
    | f :: _ => f.outer.isSome && (f.style == .all || decide (p.space < size))

/-- Writes a break. -/
def writeBreak (p : Page) (b : Break) (size : Int) : Page :=
  if p.takes b size then
    let p := p.writeIfAny b.before
    let indent := p.indent + b.offset
    let p :=
      { p with
        written := "\n" :: p.written, pending := indent.toNat,
        space := max (lineWidth - indent) leastWidth }
    p.writeIfAny b.after
  else
    { p with
      pending := p.pending + b.blanks,
      space := p.space - b.blanks - b.flat.utf8ByteSize,
      written := if b.flat.isEmpty then p.written else b.flat :: p.written }

/-! ### Measuring -/

/-- Writes what waits first as long as its width is known, at most so many pieces. -/
def advance : Nat → Page → Page
  | 0, p => p
  | n + 1, p =>
    match p.waiting.first? with
    | none => p
    | some w =>
      if w.size < 0 then p
      else
        let p := { p with waiting := p.waiting.dropFirst }
        advance n <|
          match w.piece with
          | .text s => { p.writeText s with left := p.left + w.size }
          | .line b => { p.writeBreak b w.size with left := p.left + b.blanks }
          | .opening offset style => p.writeOpening offset style w.size
          | .closing => p.writeClosing

/-- Writes what is too wide for the line. The first group or break that waits with an open width
cannot fit then. -/
def flush : Nat → Page → Page
  | 0, p => p
  | n + 1, p =>
    if p.right - p.left ≤ p.space || p.waiting.isEmpty then p
    else
      let first := p.waiting.dropped
      let p :=
        if p.unsized.first? == some first then
          { p with
            unsized := p.unsized.dropFirst,
            waiting := p.waiting.modify first fun w => { w with size := forcedWidth } }
        else p
      flush n (p.advance p.waiting.size)

/-- Gives the pieces that end here their widths: the last break, and whole groups behind it.
`depth` is the number of groups that ended behind the piece at hand. -/
def measure : Nat → (depth : Nat) → Page → Page
  | 0, _, p => p
  | n + 1, depth, p =>
    match p.unsized.last? with
    | none => p
    | some i =>
      let popped := { p with unsized := p.unsized.dropLast }
      let sized :=
        { popped with
          waiting := popped.waiting.modify i fun w => { w with size := w.size + p.right } }
      match p.waiting.items[i]?.map Waiting.piece with
      | some (.opening ..) => if depth = 0 then p else measure n (depth - 1) sized
      | some .closing =>
        measure n (depth + 1)
          { popped with waiting := popped.waiting.modify i fun w => { w with size := 1 } }
      | some (.line _) => if depth = 0 then sized else measure n depth sized
      | _ => p

/-- Measures as far as pieces wait. -/
def measureAll (p : Page) : Page := p.measure p.unsized.size 0

/-- Starts anew if nothing waits for its width. -/
def refresh (p : Page) : Page :=
  if p.unsized.isEmpty then { p with left := 1, right := 1, waiting := {}, unsized := {} } else p

/-- Lets a piece of open width wait. -/
def await (p : Page) (piece : Piece) (size : Int) : Page :=
  { p with unsized := p.unsized.push p.waiting.next, waiting := p.waiting.push ⟨piece, size⟩ }

/-! ### Commands -/

/-- Takes in a text. -/
def text (p : Page) (s : String) : Page :=
  if p.unsized.isEmpty then p.writeText s
  else
    let p :=
      { p with
        waiting := p.waiting.push ⟨.text s, s.utf8ByteSize⟩, right := p.right + s.utf8ByteSize }
    p.flush (p.waiting.size + 1)

/-- Takes in a break. -/
def line (p : Page) (b : Break) : Page :=
  let p := if p.unsized.isEmpty then p.refresh else p.measureAll
  let p := p.await (.line b) (-p.right)
  { p with right := p.right + b.blanks }

/-- Begins a group. -/
def opening (p : Page) (offset : Int) (style : BreakStyle) : Page :=
  let p := p.refresh
  p.await (.opening offset style) (-p.right)

/-- Takes a waiting break back. -/
def retract (p : Page) (b : Break) : Page :=
  { p with
    waiting := p.waiting.dropLast, unsized := p.unsized.dropLast, right := p.right - b.blanks }

/-- Ends a group. One that holds nothing but a break vanishes with it. -/
def closing (p : Page) : Page :=
  if p.unsized.isEmpty then p.writeClosing
  else
    match p.waiting.last?.map Waiting.piece, p.waiting.beforeLast?.map Waiting.piece with
    | some (.line b), some (.opening ..) =>
      let p := p.retract b
      { p with waiting := p.waiting.dropLast, unsized := p.unsized.dropLast }
    | some (.line b), _ =>
      if b.ifFilled then (p.retract b).await .closing (-1) else p.await .closing (-1)
    | _, _ => p.await .closing (-1)

/-- The beginning of the group that would end now, if it waits. -/
def openedHere? (p : Page) : (depth : Nat) → List Nat → Option Waiting
  | _, [] => none
  | depth, i :: is =>
    match p.waiting.items[i]? with
    | some ⟨.opening offset style, size⟩ =>
      if depth = 0 then some ⟨.opening offset style, size⟩ else openedHere? p (depth - 1) is
    | some ⟨.closing, _⟩ => openedHere? p (depth + 1) is
    | _ => openedHere? p depth is

/-- Ends a group that does not fit if it is wider than so many columns. -/
def closingWithin (p : Page) (most : Int) : Page :=
  let places := (p.unsized.items.toList.drop p.unsized.dropped).reverse
  let p :=
    match p.openedHere? 0 places with
    | some w =>
      if w.size < 0 ∧ most < w.size + p.right then
        { p with
          waiting := p.waiting.push ⟨.text "", forcedWidth⟩, right := p.right + forcedWidth }
      else p
    | none => p
  p.closing

/-- Moves the line after the break that came last. -/
def shift (p : Page) (offset : Int) : Page :=
  { p with
    waiting := p.waiting.modify (p.waiting.next - 1) fun w =>
      match w.piece with
      | .line b => { w with piece := .line { b with offset := b.offset + offset } }
      | _ => w }

/-- Follows a command. -/
def follow (p : Page) : Command → Page
  | .text s => p.text s
  | .line b => p.line b
  | .opening offset style => p.opening offset style
  | .closing => p.closing
  | .closingWithin most => p.closingWithin most
  | .shift offset => p.shift offset

/-- Writes all that waits. -/
def finish (p : Page) : Page :=
  if p.unsized.isEmpty then p
  else
    let p := p.measureAll
    p.advance p.waiting.size

end Page

/-- The text of a layout. -/
def Doc.render (d : Doc) : String :=
  Text.join "" (d.foldl Page.follow {}).finish.written.reverse

end ApiModels.Source
