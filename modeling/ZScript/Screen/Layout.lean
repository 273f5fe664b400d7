import ZScript.Screen.Buffer

/-!
# Splitting rectangles

A screen is laid out by cutting rectangles in two, across or down. A cut by percentage puts the
boundary at `p` percent of the length, rounded to the nearest cell, halves rounding up; the
second part takes the rest. A rectangle can also lose its last row to a bar one row high.
-/

namespace ZScript

namespace Rect

/-- `p` percent of `n`, rounded to the nearest whole number, halves up. -/
def percentOf (n p : Nat) : Nat := (2 * n * p + 100) / 200

/-- The rectangle cut into a left part of `p` percent of its width and a right part. -/
def splitColumns (r : Rect) (p : Nat) : Rect × Rect :=
  let w := min (percentOf r.width p) r.width
  ({ r with width := w }, { r with x := r.x + w, width := r.width - w })

/-- The rectangle cut into a top part of `p` percent of its height and a bottom part. -/
def splitRows (r : Rect) (p : Nat) : Rect × Rect :=
  let h := min (percentOf r.height p) r.height
  ({ r with height := h }, { r with y := r.y + h, height := r.height - h })

/-- The rectangle without its last row, and that row. -/
def splitLastRow (r : Rect) : Rect × Rect :=
  let h := r.height - 1
  ({ r with height := h }, { r with y := r.y + h, height := r.height - h })

end Rect

end ZScript
