import ZScript.Project.Basic
import ZScript.Project.Disk
import ZScript.Text.Utf8

/-!
# Reading and saving projects

`Project.open` reads a project from a file system. A directory is read whole: in each directory
the sub-directories come first, then the files, each list sorted by name, and a document's path
is its path below the directory. A single file is a project of one document named by the file's
name, whose root is the file's directory. Texts are read as UTF-8, each ill-formed part replaced
by U+FFFD, and a document's kind comes from its name. The project is then built.

`Project.save` writes a document's text back below the project's root.
-/

namespace ZScript

namespace Project

variable {m : Type → Type} [Monad m]

/-- Read a file as text. -/
def readText (fs : FileSystem m) (path : String) : m (Except ProjectError String) := do
  match ← fs.read path with
  | .ok bytes => return .ok (String.ofUtf8Lossy bytes)
  | .error e => return .error (.io e)

/-- Add the files below `dir`, their paths starting with `pre`; `fuel` bounds the depth. -/
def scan (fs : FileSystem m) : Nat → String → String → Project → m (Except ProjectError Project)
  | 0, _, _, p => return .ok p
  | fuel + 1, dir, pre, p => do
    match ← fs.entries dir with
    | .error e => return .error (.io e)
    | .ok entries =>
      let dirs := ((entries.filter (·.2)).map (·.1)).mergeSort (· ≤ ·)
      let files := ((entries.filter (!·.2)).map (·.1)).mergeSort (· ≤ ·)
      let mut p := p
      for name in dirs do
        match ← scan fs fuel (Path.join dir name) (pre ++ name ++ "/") p with
        | .ok q => p := q
        | .error e => return .error e
      for name in files do
        match ← readText fs (Path.join dir name) with
        | .ok text => p := (p.push (pre ++ name) text none).2
        | .error e => return .error e
      return .ok p

/-- Read the project at `path`, a directory or a single file, and build it. -/
def «open» (fs : FileSystem m) (path : String) : m (Except ProjectError Project) := do
  let read ← if ← fs.isDir path then do
      match ← scan fs 4096 path "" {} with
      | .ok p => pure (Except.ok { p with root := some path })
      | .error e => pure (.error e)
    else do
      match ← readText fs path with
      | .ok text =>
        let p := (({} : Project).push ((Path.lastName? path).getD "") text none).2
        pure (.ok { p with root := Path.parent? path })
      | .error e => pure (.error e)
  match read with
  | .error e => return .error e
  | .ok p =>
    let p := p.record .info ("opened " ++ path ++ ": " ++ toString p.documents.size ++ " documents")
    return .ok p.rebuild

/-- Write document `id`'s text to its file below the root; it is then no longer modified. -/
def save (fs : FileSystem m) (p : Project) (id : Nat) : m (Except ProjectError Project) := do
  let some root := p.root | return .error .noRoot
  let some d := p.document? id | return .error (.unknownDocument id)
  match ← fs.write (Path.join root d.path) d.text.toUTF8 with
  | .error e => return .error (.io e)
  | .ok () =>
    let p := { p with documents := p.documents.set! id { d with modified := false } }
    return .ok (p.record .info ("saved " ++ d.path))

end Project

end ZScript
