import ZScript.Screen.Style
import ZScript.Text.Width

/-!
# Rectangles and cell buffers

A `Rect` is a rectangle of terminal cells: its left column, top row, width and height. A
`Buffer` holds one `Cell` for every cell of a rectangle, row after row. Writing outside the
buffer's rectangle changes nothing.

A character two columns wide sits in the cell where it starts; the cell after it is hidden
behind it.
-/

namespace ZScript

/-- A rectangle of cells. -/
structure Rect where
  x : Nat := 0
  y : Nat := 0
  width : Nat := 0
  height : Nat := 0
  deriving DecidableEq, Inhabited

namespace Rect

/-- The column just right of the rectangle. -/
def right (r : Rect) : Nat := r.x + r.width

/-- The row just below the rectangle. -/
def bottom (r : Rect) : Nat := r.y + r.height

/-- Whether the rectangle has no cell. -/
def isEmpty (r : Rect) : Bool := r.width == 0 || r.height == 0

/-- The cells two rectangles share. -/
def intersection (r s : Rect) : Rect :=
  let x1 := max r.x s.x
  let y1 := max r.y s.y
  { x := x1, y := y1, width := min r.right s.right - x1, height := min r.bottom s.bottom - y1 }

/-- The rectangle without its first `n` columns. -/
def indentX (r : Rect) (n : Nat) : Rect := { r with x := r.x + n, width := r.width - n }

/-- The rectangle inside a border on all four sides. -/
def inner (r : Rect) : Rect :=
  let x := min (r.x + 1) r.right
  let y := min (r.y + 1) r.bottom
  { x, y, width := r.width - 1 - 1, height := r.height - 1 - 1 }

end Rect

/-- The cells of a rectangle, row after row. -/
structure Buffer where
  area : Rect
  cells : Array Cell
  deriving DecidableEq, Inhabited

namespace Buffer

/-- A buffer of blank cells. -/
def blank (area : Rect) : Buffer := ⟨area, Array.replicate (area.width * area.height) {}⟩

/-- The index of cell `(x, y)`, when it lies in the buffer. -/
def index? (b : Buffer) (x y : Nat) : Option Nat :=
  if b.area.x ≤ x && x < b.area.right && b.area.y ≤ y && y < b.area.bottom then
    some ((y - b.area.y) * b.area.width + (x - b.area.x))
  else none

/-- The cell at `(x, y)`. -/
def get (b : Buffer) (x y : Nat) : Cell :=
  match b.index? x y with
  | some i => b.cells[i]?.getD {}
  | none => {}

/-- Change the cell at `(x, y)`. -/
def modify (b : Buffer) (x y : Nat) (f : Cell → Cell) : Buffer :=
  match b.index? x y with
  | some i => { b with cells := b.cells.modify i f }
  | none => b

/-- Show `symbol` at `(x, y)` in style `s`. -/
def put (b : Buffer) (x y : Nat) (symbol : String) (s : Style) : Buffer :=
  b.modify x y fun c => { c with symbol }.setStyle s

/-- Apply style `s` to every cell of `r`. -/
def setStyle (b : Buffer) (r : Rect) (s : Style) : Buffer :=
  let r := r.intersection b.area
  (List.range r.height).foldl (fun b dy =>
    (List.range r.width).foldl (fun b dx => b.modify (r.x + dx) (r.y + dy) (·.setStyle s)) b) b

/-- The rows of the buffer, each a list of cells. -/
def rows (b : Buffer) : List (List Cell) :=
  (List.range b.area.height).map fun dy => (List.range b.area.width).map fun dx =>
    b.get (b.area.x + dx) (b.area.y + dy)

end Buffer

end ZScript
