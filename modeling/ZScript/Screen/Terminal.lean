import ZScript.Screen.Buffer
import ZScript.Binary64.Basic

/-!
# Drawing frames on a terminal

A program draws whole frames, but a terminal is sent only the cells that changed since the
frame before. The cell after a character two columns wide is never sent: the wide character
covers it. So what the screen shows can differ from the last frame in such a cell, which keeps
what was last sent there.

A cell is sent when it differs from the same cell of the previous frame, or when a wide
character of either frame covered it, unless a wide character of the new frame covers it.

A terminal has at most `maxCells` cells. A larger size is shrunk to about that many with about the
same shape (`Terminal.area`), in doubles: the ratio `r = width / height`, the height
`√(maxCells / r)` and the width `height * r`, each rounded to the nearest double and then cut to
whole cells.
-/

namespace ZScript

/-- A terminal: the last frame drawn, and what its screen shows. -/
structure Terminal where
  frame : Buffer
  screen : Buffer
  deriving Inhabited

namespace Terminal

/-- The most cells a terminal has. -/
def maxCells : Nat := 65535

/-- The rectangle a terminal of `width` columns and `height` rows draws in: the whole of it when
    it has at most `maxCells` cells, else the shrunk size, each side at most `maxCells`. -/
def area (width height : Nat) : Rect :=
  if width * height ≤ maxCells then { width, height }
  else
    let (rn, rd) := Binary64.nearestRatio width height
    let (qn, qd) := Binary64.nearestRatio (maxCells * rd) rn
    let (hn, hd) := Binary64.nearestSqrt qn qd
    let (wn, wd) := Binary64.nearestRatio (hn * rn) (hd * rd)
    { width := min (wn / wd) maxCells, height := min (hn / hd) maxCells }

/-- A terminal of `width` columns and `height` rows showing blank cells, in its `area`. -/
def new (width height : Nat) : Terminal :=
  let b := Buffer.blank (area width height)
  ⟨b, b⟩

/-- The cells to send, from index `i` on, of a frame `next` drawn over `prev`; `invalid` cells
    are left to be sent because a wide character covered them, and the next `skip` are covered
    by a wide character of the new frame. -/
def changes (prev next : List Cell) (i invalid skip : Nat) : List Nat :=
  match prev, next with
  | p :: ps, c :: cs =>
    let send := (c != p || invalid > 0) && skip == 0
    let wc := Width.string c.symbol
    let rest := changes ps cs (i + 1) (max (max wc (Width.string p.symbol)) invalid - 1) (wc - 1)
    if send then i :: rest else rest
  | _, _ => []

/-- Draw a frame: send the cells that changed. -/
def draw (t : Terminal) (next : Buffer) : Terminal :=
  let sent := changes t.frame.cells.toList next.cells.toList 0 0 0
  let screen := sent.foldl (fun s i => { s with cells := s.cells.set! i (next.cells[i]?.getD {}) }) t.screen
  ⟨next, screen⟩

end Terminal

namespace Buffer

/-- The text of each row: its cells' symbols one after another. -/
def rowTexts (b : Buffer) : List String := b.rows.map fun row => String.join (row.map (·.symbol))

/-- Group cells into runs of equal look. -/
def runsOf : List Cell → List (String × Cell)
  | [] => []
  | c :: cs =>
    match runsOf cs with
    | (text, d) :: rest =>
      if d.fg == c.fg && d.bg == c.bg && d.modifier == c.modifier then (c.symbol ++ text, d) :: rest
      else (c.symbol, c) :: (text, d) :: rest
    | [] => [(c.symbol, c)]

/-- Each row as its runs of cells of equal look: the text of the run and a cell with that look. -/
def styleRuns (b : Buffer) : List (List (String × Cell)) := b.rows.map runsOf

end Buffer

end ZScript
