import ZScript.Screen.Buffer
import ZScript.Text.Grapheme

/-!
# Text widgets

Text on a terminal is made of `Span`s, runs of text in one style, and `Line`s of spans. A
`Paragraph` shows lines in a rectangle, one line per row, optionally inside a `Block`: a border
on all four sides with a title set into its top edge.

Text is placed cluster by cluster (see `Grapheme.clusters`), each cluster in the cell where it
starts, and a cluster as wide as two columns hides the cell after it.

* A paragraph line is cut where the next cluster would cross the right edge; a cluster wider
  than the whole rectangle is left out, and so is one that takes no column. A line that fits is
  placed by its alignment. Rows past the bottom are not shown.
* A block's border is drawn side by side (left, top, right, bottom) and then corner by corner,
  so a corner wins where sides meet. The title starts after the top-left corner and is cut at
  the top-right one; it keeps the border's colours.
-/

namespace ZScript

/-- Where a line sits in its row. -/
inductive Alignment where
  | left
  | center
  | right
  deriving DecidableEq, Inhabited

/-- A run of text in one style. -/
structure Span where
  content : String
  style : Style := {}
  deriving Inhabited

/-- The columns the span's text takes. -/
def Span.width (s : Span) : Nat := Width.string s.content

/-- The clusters of the span's text, line feeds left out, each with the span's style over
    `base`. -/
def Span.clusters (s : Span) (base : Style) : List (String × Style) :=
  ((Grapheme.clusters s.content).filter (· != "\n")).map fun g => (g, base.patch s.style)

/-- A line of spans, with a style under them all and an alignment of its own, if any. -/
structure Line where
  spans : List Span
  style : Style := {}
  alignment : Option Alignment := none
  deriving Inhabited

/-- The columns the line takes. -/
def Line.width (l : Line) : Nat := l.spans.foldl (fun n s => n + s.width) 0

/-- The clusters of the line, each with its style over `base`. -/
def Line.clusters (l : Line) (base : Style) : List (String × Style) :=
  l.spans.flatMap (·.clusters (base.patch l.style))

/-- A border on all sides, in a style, with a title. -/
structure Block where
  title : String
  borderStyle : Style := {}
  deriving Inhabited

/-- Lines in a rectangle, perhaps inside a block. -/
structure Paragraph where
  lines : List Line
  block : Option Block := none
  style : Style := {}
  alignment : Alignment := .left
  deriving Inhabited

/-- Where a line of `width` columns starts in a row of `room` columns. -/
def Alignment.offset (a : Alignment) (width room : Nat) : Nat :=
  match a with
  | .left => 0
  | .center => room / 2 - width / 2
  | .right => room - width

namespace Buffer

/-- Clear the cells `(x, y)` for `x` in `[lo, hi)`. -/
def clearRun (b : Buffer) (y lo : Nat) : Nat → Buffer
  | 0 => b
  | k + 1 => (b.modify lo y fun _ => {}).clearRun y (lo + 1) k

/-- Place clusters from column `x` of row `y`, up to column `right`. The first cluster always
    takes its cell; a cluster that takes no column joins the cell before it. -/
def placeClusters (b : Buffer) (left right y : Nat) : Nat → Bool → List (String × Style) → Buffer
  | _, _, [] => b
  | x, first, (g, s) :: rest =>
    let w := Width.string g
    if x + w > right then b else
    let b :=
      if first then b.put x y g s
      else if x == left then b.modify x y fun c => { c with symbol := c.symbol ++ g }.setStyle s
      else if w == 0 then b.modify (x - 1) y fun c => { c with symbol := c.symbol ++ g }.setStyle s
      else b.put x y g s
    (b.clearRun y (x + 1) (w - 1)).placeClusters left right y (x + w) false rest

/-- Draw a span in the first row of `area`. -/
def drawSpan (b : Buffer) (s : Span) (area : Rect) : Buffer :=
  let area := area.intersection b.area
  if area.isEmpty then b else b.placeClusters area.x area.right area.y area.x true (s.clusters {})

/-- Draw spans one after another from the left of `area`, each in the room the ones before it
    leave. -/
def drawSpans (b : Buffer) (area : Rect) : List Span → Buffer
  | [] => b
  | s :: rest =>
    if s.width == 0 then b.drawSpans area rest
    else if area.isEmpty then b
    else (b.drawSpan s area).drawSpans (area.indentX s.width) rest

/-- Draw a line in the first row of `area`, aligned left. -/
def drawLine (b : Buffer) (l : Line) (area : Rect) : Buffer :=
  let area := area.intersection b.area
  let area := { area with height := min area.height 1 }
  if area.isEmpty || l.width == 0 then b else
  (b.setStyle area l.style).drawSpans area l.spans

/-- Draw a block's border and title around `area`. -/
def drawBlock (b : Buffer) (blk : Block) (area : Rect) : Buffer :=
  let area := area.intersection b.area
  if area.isEmpty then b else
  let s := blk.borderStyle
  let rows := List.range area.height
  let cols := List.range area.width
  let r := area.right - 1
  let btm := area.bottom - 1
  let b := rows.foldl (fun b dy => b.put area.x (area.y + dy) "│" s) b
  let b := cols.foldl (fun b dx => b.put (area.x + dx) area.y "─" s) b
  let b := rows.foldl (fun b dy => b.put r (area.y + dy) "│" s) b
  let b := cols.foldl (fun b dx => b.put (area.x + dx) btm "─" s) b
  let b := b.put r btm "┘" s
  let b := b.put r area.y "┐" s
  let b := b.put area.x btm "└" s
  let b := b.put area.x area.y "┌" s
  let room : Rect := { x := area.x + 1, y := area.y, width := area.width - 1 - 1, height := 1 }
  if room.isEmpty then b else
  let title : Line := { spans := [{ content := blk.title }] }
  b.drawLine title { room with width := min title.width room.width }

/-- A paragraph line cut to `room` columns: the clusters kept and the columns they take. -/
def cutLine (room : Nat) : List (String × Style) → Nat → List (String × Style) × Nat
  | [], used => ([], used)
  | (g, s) :: rest, used =>
    let w := Width.string g
    if w > room then cutLine room rest used
    else if used + w > room then ([], used)
    else
      let (kept, total) := cutLine room rest (used + w)
      ((g, s) :: kept, total)

/-- Put the clusters of one paragraph line in row `y` from column `x`, skipping those that take
    no column. -/
def putClusters (b : Buffer) (y : Nat) : Nat → List (String × Style) → Buffer
  | _, [] => b
  | x, (g, s) :: rest =>
    let w := Width.string g
    if w == 0 then b.putClusters y x rest
    else (b.put x y (if g.isEmpty then " " else g) s).putClusters y (x + w) rest

/-- Draw a paragraph in `area`. -/
def drawParagraph (b : Buffer) (p : Paragraph) (area : Rect) : Buffer :=
  let b := b.setStyle area p.style
  let (b, inner) := match p.block with
    | some blk => (b.drawBlock blk area, area.inner)
    | none => (b, area)
  if inner.isEmpty then b else
  let b := b.setStyle inner p.style
  (p.lines.take inner.height).zipIdx.foldl (fun b (l, row) =>
    let (kept, width) := cutLine inner.width (l.clusters {}) 0
    let x := (l.alignment.getD p.alignment).offset width inner.width
    b.putClusters (inner.y + row) (inner.x + x) kept) b

end Buffer

end ZScript
