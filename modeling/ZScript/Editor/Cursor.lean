/-!
# Cursor arithmetic

The editor's cursor is a byte offset into the UTF-8 encoding of the text, always at the start
of a character or at the end. Lines are separated by line feeds; lines and columns count from
zero, and a column counts characters.

Moving up or down keeps the column where the target line is long enough, and otherwise stops at
that line's end; moving up from the first line goes to the start of the text, and down from the
last line to its end.
-/

namespace ZScript

namespace Cursor

/-- The characters of `text` with the byte offset each starts at. -/
def positions (text : String) : List (Nat × Char) :=
  (text.toList.foldl (fun (acc, pos) c => ((pos, c) :: acc, pos + c.utf8Size)) ([], 0)).1.reverse

/-- The byte offset of the start of every line. -/
def lineStarts (text : String) : List Nat :=
  0 :: (positions text).filterMap fun (pos, c) => if c == '\n' then some (pos + 1) else none

/-- The line and column of byte offset `offset`, clamped to the text. -/
def lineCol (text : String) (offset : Nat) : Nat × Nat :=
  let offset := min offset text.utf8ByteSize
  let starts := lineStarts text
  let line := (starts.filter (· ≤ offset)).length - 1
  let start := starts.getD line 0
  (line, ((positions text).filter fun (pos, _) => start ≤ pos && pos < offset).length)

/-- The byte offset of column `column` of line `line`, clamped to the end of that line; the end
    of the text when there is no such line. -/
def offsetAt (text : String) (line column : Nat) : Nat :=
  match (lineStarts text)[line]? with
  | none => text.utf8ByteSize
  | some start =>
    let rest := (positions text).filter fun (pos, _) => start ≤ pos
    let onLine := rest.takeWhile fun (_, c) => c != '\n'
    let stop := match rest.find? fun (_, c) => c == '\n' with
      | some (pos, _) => pos
      | none => text.utf8ByteSize
    match onLine[column]? with
    | some (pos, _) => pos
    | none => stop

/-- The start of the character before byte offset `offset`; `0` at the start. -/
def prevBoundary (text : String) (offset : Nat) : Nat :=
  let offset := min offset text.utf8ByteSize
  (((positions text).filter fun (pos, _) => pos < offset).getLast?.map (·.1)).getD 0

/-- The offset just after the character at byte offset `offset`; the end of the text at its
    end. -/
def nextBoundary (text : String) (offset : Nat) : Nat :=
  let start := min offset text.utf8ByteSize
  match (positions text).find? fun (pos, _) => start ≤ pos with
  | some (_, c) => offset + c.utf8Size
  | none => text.utf8ByteSize

/-- The offset one line up (`down` false) or down from `offset`, at the same column if the line
    is long enough. -/
def moveVertical (text : String) (offset : Nat) (down : Bool) : Nat :=
  let (line, column) := lineCol text offset
  let lines := (lineStarts text).length
  if !down then
    if line == 0 then 0 else offsetAt text (line - 1) column
  else if line + 1 ≥ lines then text.utf8ByteSize
  else offsetAt text (line + 1) column

/-- The text with the bytes `[start, stop)` replaced by `insert`. -/
def replace (text : String) (start stop : Nat) (insert : String) : String :=
  let ps := positions text
  String.ofList ((ps.filter (·.1 < start)).map (·.2)) ++ insert ++
    String.ofList ((ps.filter (stop ≤ ·.1)).map (·.2))

end Cursor

end ZScript
