import ZScript.Editor.Panes
import ZScript.Project.Open
import ZScript.Screen.Terminal

/-!
# The editor

The editor shows a project in three panes (files, source, problems) over a status bar, and one
pane has the focus. Keys act on the focused pane:

* everywhere: `Esc` and `Ctrl-Q` quit, `Ctrl-S` saves the open document, `Tab` and `BackTab`
  move the focus forward and back;
* files: `Up`/`Down` select, `Enter` opens the selected document;
* source (without `Ctrl`): the arrows, `Home` and `End` move the cursor, characters and `Enter`
  are typed, `Backspace` and `Delete` erase a character;
* problems: `Up`/`Down` select, `Enter` jumps to the start of the problem's line.

Every edit replaces the document's text and rebuilds the whole project, so the colours and
problems always reflect all the files.

A frame is the whole window drawn from the state: the bar takes the last row, the files pane
22 percent of the width, and the source pane three quarters of the rest of the height above
the problems pane. Drawing a frame also scrolls each pane to keep its selection in view.
-/

namespace ZScript

/-- The three panes that can have the focus. -/
inductive Focus where
  | files
  | source
  | problems
  deriving DecidableEq, Inhabited

namespace Focus

/-- The pane after this one: files, source, problems, and round again. -/
def next : Focus → Focus
  | .files => .source
  | .source => .problems
  | .problems => .files

/-- The pane before this one. -/
def prev : Focus → Focus
  | .files => .problems
  | .source => .files
  | .problems => .source

end Focus

/-- A key on the keyboard. -/
inductive KeyCode where
  | char (c : Char)
  | enter
  | esc
  | tab
  | backTab
  | backspace
  | delete
  | left
  | right
  | up
  | down
  | home
  | «end»
  | pageUp
  | pageDown
  | insert
  | function (n : Nat)
  deriving DecidableEq, Inhabited

/-- A key press, perhaps with `Ctrl` held. -/
structure Key where
  code : KeyCode
  control : Bool := false
  deriving DecidableEq, Inhabited

/-- The editor's state. -/
structure App where
  project : Project
  /-- The document shown in the source pane. -/
  opened : Option Nat
  /-- The cursor, a byte offset into the open document. -/
  cursor : Nat := 0
  focus : Focus
  fileSelected : Nat
  problemSelected : Nat := 0
  filesScroll : Nat := 0
  sourceScroll : Nat := 0
  problemsScroll : Nat := 0
  shouldQuit : Bool := false
  /-- The last message for the status bar. -/
  status : String
  deriving Inhabited

namespace App

/-- The editor on a project, showing its first ZScript document if there is one. -/
def start (p : Project) : App :=
  let first := (p.documents.find? (·.kind == .zscript)).map (·.id)
  let status := if p.hasErrors then "Project has errors" else "Ready!"
  let focus : Focus := if first.isSome then .source else .files
  { project := p, opened := first, focus, fileSelected := first.getD 0, status }

/-- The open document. -/
def document? (app : App) : Option Document := app.opened.bind app.project.document?

/-- The tooltip of the semantic token under the cursor. -/
def tooltip? (app : App) : Option String :=
  app.opened.bind fun id => (app.project.tokenAt id app.cursor).map (·.tooltip)

/-- Replace the bytes `[start, stop)` of the open document and rebuild the project; the cursor
    goes after the new text. -/
def replace (app : App) (start stop : Nat) (insert : String) : App :=
  match app.opened, app.document? with
  | some id, some d =>
    match app.project.setContents id (Cursor.replace d.text start stop insert) with
    | .ok p =>
      let app := { app with project := p, cursor := start + insert.utf8ByteSize }
      let count := (app.document?.map (·.diagnostics.size)).getD 0
      { app with problemSelected := min app.problemSelected (count - 1) }
    | .error e => { app with status := "Error: " ++ e.message }
  | _, _ => app

/-- Open document `id` in the source pane, with the cursor at its start. -/
def openDocument (app : App) (id : Nat) : App :=
  match app.project.document? id with
  | some d =>
    let status := "Opened " ++ d.path
    { app with status, opened := some id, cursor := 0, sourceScroll := 0, problemSelected := 0, problemsScroll := 0, focus := .source }
  | none => app

/-- A key in the files pane. -/
def filesKey (app : App) (code : KeyCode) : App :=
  let count := app.project.documents.size
  match code with
  | .up => { app with fileSelected := app.fileSelected - 1 }
  | .down => if app.fileSelected + 1 < count then { app with fileSelected := app.fileSelected + 1 } else app
  | .enter => if app.fileSelected < count then app.openDocument app.fileSelected else app
  | _ => app

/-- A key in the problems pane. -/
def problemsKey (app : App) (code : KeyCode) : App :=
  match app.document? with
  | none => app
  | some d =>
    let count := d.diagnostics.size
    let target := d.diagnostics[app.problemSelected]?.map fun x => Cursor.offsetAt d.text (x.line - 1) 0
    match code with
    | .up => { app with problemSelected := app.problemSelected - 1 }
    | .down => if app.problemSelected + 1 < count then { app with problemSelected := app.problemSelected + 1 } else app
    | .enter =>
      match target with
      | some offset => { app with cursor := offset, focus := .source }
      | none => app
    | _ => app

/-- A key in the source pane. -/
def sourceKey (app : App) (code : KeyCode) : App :=
  match app.document? with
  | none => app
  | some d =>
    let text := d.text
    match code with
    | .left => { app with cursor := Cursor.prevBoundary text app.cursor }
    | .right => { app with cursor := Cursor.nextBoundary text app.cursor }
    | .up => { app with cursor := Cursor.moveVertical text app.cursor false }
    | .down => { app with cursor := Cursor.moveVertical text app.cursor true }
    | .home => { app with cursor := Cursor.offsetAt text (Cursor.lineCol text app.cursor).1 0 }
    | .«end» =>
      let line := (Cursor.lineCol text app.cursor).1
      { app with cursor := Cursor.offsetAt text line (text.utf8ByteSize + 1) }
    | .char c => app.replace app.cursor app.cursor c.toString
    | .enter => app.replace app.cursor app.cursor "\n"
    | .backspace =>
      if app.cursor > 0 then app.replace (Cursor.prevBoundary text app.cursor) app.cursor "" else app
    | .delete =>
      if app.cursor < text.utf8ByteSize then app.replace app.cursor (Cursor.nextBoundary text app.cursor) ""
      else app
    | _ => app

/-- A key without a meaning of its own goes to the focused pane; in the source pane only without
    `Ctrl`. -/
def paneKey (app : App) (key : Key) : App :=
  match app.focus with
  | .files => app.filesKey key.code
  | .source => if key.control then app else app.sourceKey key.code
  | .problems => app.problemsKey key.code

variable {m : Type → Type} [Monad m]

/-- Save the open document through file system `fs`. -/
def save (fs : FileSystem m) (app : App) : m App := do
  match app.opened with
  | none => return { app with status := "No file open" }
  | some id =>
    match ← Project.save fs app.project id with
    | .ok p =>
      let status := match p.document? id with
        | some d => "Saved " ++ d.path
        | none => "Saved"
      return { app with project := p, status }
    | .error e => return { app with status := "Save failed: " ++ e.message }

/-- Handle one key press. -/
def handleKey (fs : FileSystem m) (app : App) (key : Key) : m App :=
  match key.code with
  | .esc => return { app with shouldQuit := true }
  | .char 'q' => if key.control then return { app with shouldQuit := true } else return app.paneKey key
  | .char 's' => if key.control then app.save fs else return app.paneKey key
  | .tab => return { app with focus := app.focus.next }
  | .backTab => return { app with focus := app.focus.prev }
  | _ => return app.paneKey key

/-- Draw the window into a blank buffer of `area`; drawing scrolls the panes. -/
def render (app : App) (area : Rect) : App × Buffer :=
  let b := Buffer.blank area
  let (main, bar) := area.splitLastRow
  let (left, right) := main.splitColumns 22
  let (top, bottom) := right.splitRows 75
  let (b, filesScroll) := Pane.files b left app.project.documents app.fileSelected app.opened
    (app.focus == .files) app.filesScroll
  let doc := app.document?
  let (b, sourceScroll) := Pane.source b top doc app.cursor (app.focus == .source) app.sourceScroll
  let (b, problemsScroll) := Pane.problems b bottom ((doc.map (·.diagnostics)).getD #[])
    app.problemSelected (app.focus == .problems) app.problemsScroll
  let position := doc.map fun d => Cursor.lineCol d.text app.cursor
  let b := Pane.status b bar app.status position app.tooltip? app.project.hasErrors
  ({ app with filesScroll, sourceScroll, problemsScroll }, b)

/-- Draw a frame on the terminal. -/
def draw (app : App) (t : Terminal) : App × Terminal :=
  let (app, frame) := app.render t.frame.area
  (app, t.draw frame)

end App

end ZScript
