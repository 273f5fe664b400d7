import ZScript.Editor.Cursor
import ZScript.Editor.Theme
import ZScript.Screen.Layout
import ZScript.Screen.Widgets
import ZScript.Project.Basic
import ZScript.Text.Pad

/-!
# The editor's panes

The editor's window has four parts: the project's files, the open document, the problems of the
open document, and a status bar. Each pane is drawn from the editor's state; the three bordered
panes also keep their scroll offset so that their selection stays in view (`follow`).

* The files pane lists every document, marked `✗` when it has errors and `!` when it has only
  warnings; the open one is bold, the selected one highlighted while the pane has the focus,
  and a changed one carries `[+]`.
* The source pane shows the open document's lines, each coloured by the semantic tokens over it
  (the later token wins where they overlap), with a gutter mark for the line's worst problem and
  the line number. The cursor's line is highlighted and the character under the cursor shown in
  reverse; at the end of a line the cursor is a reversed blank.
* The problems pane lists the open document's diagnostics with their severity and line.
* The status bar shows the cursor's line and column, then the tooltip under the cursor or else
  the last message, and on its right the main keys.
-/

namespace ZScript

namespace Pane

/-- The scroll offset that keeps row `selected` inside a window of `height` rows, moving the
    window as little as possible. -/
def follow (scroll selected height : Nat) : Nat :=
  if selected < scroll then selected
  else if selected ≥ scroll + height then selected + 1 - height
  else scroll

/-- The rows inside a bordered pane, at least one. -/
def visibleHeight (area : Rect) : Nat := max (area.height - 2) 1

/-- Draw the files pane; the answer keeps the new scroll offset. -/
def files (b : Buffer) (area : Rect) (docs : Array Document) (selected : Nat) (opened : Option Nat)
    (focused : Bool) (scroll : Nat) : Buffer × Nat :=
  let height := visibleHeight area
  let scroll := follow scroll selected height
  let lines := ((docs.toList.zipIdx.drop scroll).take height).map fun (d, idx) =>
    let failed := (d.analysis.map (·.hasErrors)).getD false
    let warned := !failed && !d.diagnostics.isEmpty
    let marker : Span :=
      if failed then { content := "✗ ", style := ({} : Style).withFg Theme.error }
      else if warned then { content := "! ", style := ({} : Style).withFg Theme.warning }
      else { content := "  " }
    let style := ({} : Style).withFg (match d.kind with
      | .zscript => Theme.fg
      | .text => Theme.comment)
    let style := if some idx == opened then style.withAttr .bold else style
    let style := if idx == selected && focused then style.withBg Theme.currentLine else style
    let name := if d.modified then d.path ++ " [+]" else d.path
    ({ spans := [marker, { content := name, style }] } : Line)
  let block : Block := { title := " Files (" ++ toString docs.size ++ ") ", borderStyle := Theme.border focused }
  (b.drawParagraph { lines, block := some block } area, scroll)

/-- Draw the problems pane; the answer keeps the new scroll offset. -/
def problems (b : Buffer) (area : Rect) (ds : Array Diagnostic) (selected : Nat) (focused : Bool)
    (scroll : Nat) : Buffer × Nat :=
  let errors := (ds.toList.filter (·.severity == .error)).length
  let title := " Problems: " ++ toString errors ++ " error(s), " ++ toString (ds.size - errors) ++ " warning(s) "
  let block : Block := { title, borderStyle := Theme.border focused }
  let height := visibleHeight area
  let scroll := follow scroll selected height
  if ds.isEmpty then
    let line : Line := { spans := [{ content := "No problems", style := ({} : Style).withFg Theme.success }] }
    (b.drawParagraph { lines := [line], block := some block } area, scroll)
  else
  let lines := ((ds.toList.zipIdx.drop scroll).take height).map fun (d, idx) =>
    let color := match d.severity with
      | .error => Theme.error
      | .warning => Theme.warning
    let text := ({} : Style).withFg Theme.fg
    let text := if idx == selected && focused then text.withBg Theme.currentLine else text
    ({ spans := [{ content := Pad.right d.severity.word 7 ++ " ", style := (({} : Style).withFg color).withAttr .bold },
      { content := Pad.left (toString d.line) 4 ++ " ", style := ({} : Style).withFg Theme.comment },
      { content := d.message, style := text }] } : Line)
  (b.drawParagraph { lines, block := some block } area, scroll)

/-- The semantic class of every byte of a text of `size` bytes; later tokens win. -/
def classify (size : Nat) (tokens : Array SemanticToken) : Array (Option SemanticKind) :=
  tokens.foldl (fun kinds t =>
    let stop := min t.stop size
    (List.range (stop - t.start)).foldl (fun kinds i => kinds.set! (t.start + i) (some t.kind)) kinds)
    (Array.replicate size none)

/-- The class of byte `i`. -/
def kindAt (kinds : Array (Option SemanticKind)) (i : Nat) : Option SemanticKind := kinds[i]?.getD none

/-- Push the run `run` (reversed) of class `kind` onto the spans, unless it is empty. -/
def flush (run : List Char) (kind : Option SemanticKind) (acc : List Span) : List Span :=
  if run.isEmpty then acc else { content := String.ofList run.reverse, style := Theme.styleFor kind } :: acc

/-- The spans of a line's characters (with their byte offsets): runs of characters of one
    class, and the character under the cursor on its own, reversed. -/
def runs (kinds : Array (Option SemanticKind)) (cursor : Option Nat) :
    List (Nat × Char) → List Char → Option SemanticKind → List Span → List Span
  | [], run, kind, acc => (flush run kind acc).reverse
  | (pos, c) :: rest, run, kind, acc =>
    let k := kindAt kinds pos
    if cursor == some pos then
      let acc := { content := c.toString, style := (Theme.styleFor k).withAttr .reversed } :: flush run kind acc
      runs kinds cursor rest [] (kindAt kinds (pos + c.utf8Size)) acc
    else if k != kind then runs kinds cursor rest [c] k (flush run kind acc)
    else runs kinds cursor rest (c :: run) kind acc

/-- The coloured spans of a line whose characters end at byte `stop`. -/
def highlight (kinds : Array (Option SemanticKind)) (start stop : Nat) (cs : List (Nat × Char))
    (cursor : Option Nat) : List Span :=
  runs kinds cursor cs [] (kindAt kinds start) [] ++
    if cursor == some stop then [{ content := " ", style := ({} : Style).withAttr .reversed }] else []

/-- Draw the source pane for the open document; the answer keeps the new scroll offset. -/
def source (b : Buffer) (area : Rect) (doc : Option Document) (cursor : Nat) (focused : Bool)
    (scroll : Nat) : Buffer × Nat :=
  let title := match doc with
    | some d => if d.modified then " " ++ d.path ++ " [+] " else " " ++ d.path ++ " "
    | none => " Source "
  let block : Block := { title, borderStyle := Theme.border focused }
  match doc with
  | none =>
    let hint : Line := { spans := [{ content := "No file open", style := ({} : Style).withFg Theme.comment }] }
    (b.drawParagraph { lines := [hint], block := some block } area, scroll)
  | some d =>
    let text := d.text
    let size := text.utf8ByteSize
    let kinds := classify size d.semantic
    let starts := Cursor.lineStarts text
    let (cursorLine, _) := Cursor.lineCol text cursor
    let height := visibleHeight area
    let scroll := follow scroll cursorLine height
    let ps := Cursor.positions text
    let lines := ((starts.zipIdx.drop scroll).take height).map fun (start, idx) =>
      let stop := match starts[idx + 1]? with
        | some next => next - 1
        | none => size
      let cs := ps.filter fun (p, _) => start ≤ p && p < stop
      let (cs, stop) := if (cs.getLast?.map (·.2)) == some '\r' then (cs.dropLast, stop - 1) else (cs, stop)
      let current := idx == cursorLine
      let marks := (d.diagnostics.toList.filter (·.line == idx + 1)).map (·.severity)
      let marker : Span :=
        if marks.contains .error then { content := "●", style := ({} : Style).withFg Theme.error }
        else if marks.contains .warning then { content := "●", style := ({} : Style).withFg Theme.warning }
        else { content := " " }
      let number := if current then (({} : Style).withFg Theme.secondary).withAttr .bold
        else ({} : Style).withFg Theme.comment
      let content := highlight kinds start stop cs (if current then some cursor else none)
      let content := if current then content.map fun s => { s with style := s.style.withBg Theme.currentLine } else content
      ({ spans := marker :: { content := Pad.left (toString (idx + 1)) 4 ++ " ", style := number } :: content } : Line)
    (b.drawParagraph { lines, block := some block } area, scroll)

/-- Draw the status bar: the cursor's position (or `--`), the tooltip or else `message`, and the
    keys. Its colour warns when the project has errors. -/
def status (b : Buffer) (area : Rect) (message : String) (position : Option (Nat × Nat))
    (tooltip : Option String) (hasErrors : Bool) : Buffer :=
  let (left, right) := area.splitColumns 55
  let bar := ({} : Style).withBg Theme.currentLine
  let spot := match position with
    | some (l, c) => " Ln " ++ toString (l + 1) ++ ", Col " ++ toString (c + 1) ++ " "
    | none => " -- "
  let badge := ((({} : Style).withBg (if hasErrors then Theme.error else Theme.primary)).withFg .black).withAttr .bold
  let note : Span := match tooltip with
    | some t => { content := " " ++ t ++ " ", style := bar.withFg Theme.typeName }
    | none => { content := " " ++ message ++ " ", style := bar.withFg Theme.fg }
  let leftLine : Line := { spans := [{ content := spot, style := badge }, { content := " | ", style := bar.withFg Theme.comment }, note] }
  let b := b.drawParagraph { lines := [leftLine], style := bar, alignment := .left } left
  let key := (({} : Style).withBg Theme.comment).withFg .black
  let desc := bar.withFg Theme.fg
  let sep := bar.withFg Theme.comment
  let entry (k d : String) : List Span := [{ content := k, style := key }, { content := d, style := desc }]
  let gap : List Span := [{ content := "│", style := sep }, { content := " ", style := desc }]
  let keys := entry " ⇥ " " focus " ++ gap ++ entry " ↵ " " open " ++ gap ++ entry " ^S " " save " ++ gap ++
    entry " esc " " quit "
  let rightLine : Line := { spans := keys }
  b.drawParagraph { lines := [rightLine], style := bar, alignment := .right } right

end Pane

end ZScript
