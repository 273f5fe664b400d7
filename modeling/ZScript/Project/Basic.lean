import ZScript.Analysis.Bodies
import ZScript.Project.Path
import ZScript.Project.Disk

/-!
# Projects

A project is a list of documents, each with a path (normalized, `/`-separated), a kind, a text,
and, for a ZScript document, the analysis of its text. The document's index in the list is its
file index, which handles (`DeclRef`) use.

Every change rebuilds the whole project from the texts:

1. every ZScript document is read into its skeleton;
2. every `#include` is matched to the document whose path equals it, ignoring ASCII case and
   leading `/` (an include that matches none is worth a warning);
3. members, then class links, then method bodies: each phase runs over the documents in order,
   against an index built once at the start of the phase; while a document is analysed it sees
   the trees of the others as they stand, those analysed before it in the phase included.

The project also keeps the log written by all of this.
-/

namespace ZScript

/-- A file of a project. -/
structure Document where
  id : Nat
  /-- The path, normalized, relative to the project's root. -/
  path : String
  kind : FileKind
  text : String
  /-- What analysis knows about the text; nothing for a text document. -/
  analysis : Option Analysis := none
  /-- Whether the text has changed since it was read or saved. -/
  modified : Bool := false
  deriving Inhabited

namespace Document

/-- The document's diagnostics. -/
def diagnostics (d : Document) : Array Diagnostic := (d.analysis.map (·.diagnostics)).getD #[]

/-- The document's semantic tokens. -/
def semantic (d : Document) : Array SemanticToken := (d.analysis.map (·.semantic)).getD #[]

end Document

/-- Why a project operation failed. -/
inductive ProjectError where
  /-- Reading or writing a file failed. -/
  | io (e : IoError)
  /-- A project made in memory has nowhere to save to. -/
  | noRoot
  | unknownDocument (id : Nat)
  deriving Inhabited

/-- The error's tag in reports. -/
def ProjectError.tag : ProjectError → String
  | .io _ => "Io"
  | .noRoot => "NoRoot"
  | .unknownDocument _ => "UnknownDocument"

/-- Whether the error wraps a lower-level cause: only a failed read or write does. -/
def ProjectError.hasSource : ProjectError → Bool
  | .io _ => true
  | _ => false

/-- The error as a sentence. -/
def ProjectError.message : ProjectError → String
  | .io e => "I/O error: " ++ e.message
  | .noRoot => "project has no root directory"
  | .unknownDocument id => "no document with id " ++ toString id

/-- The documents of a project, where it lives on disk, and its log. -/
structure Project where
  /-- The directory the document paths are relative to; none for a project made in memory. -/
  root : Option String := none
  documents : Array Document := #[]
  log : Array LogRecord := #[]
  deriving Inhabited

namespace Project

/-- Write a log record. -/
def record (p : Project) (level : LogLevel) (message : String) : Project :=
  { p with log := p.log.push ⟨level, .project, message⟩ }

/-- Run an analysis step on a file, given what it sees, appending to the project's log. -/
def runStep (x : Step Unit) (u : Universe) (a : Analysis) (log : Array LogRecord) :
    Analysis × Array LogRecord :=
  let (_, w) := (x.run u).run ⟨a, log⟩
  (w.file, w.log)

/-- Add a document under the normalized `path`, of the given kind or else of the kind its name
    says, without rebuilding. -/
def push (p : Project) (path text : String) (kind : Option FileKind) : Nat × Project :=
  let path := Path.normalize path
  let id := p.documents.size
  let d : Document := { id, path, kind := kind.getD (FileKind.detect path), text }
  (id, { p with documents := p.documents.push d })

/-- The analyses of the documents that have one, in order. -/
def analyses (p : Project) : List Analysis := p.documents.toList.filterMap (·.analysis)

/-- Run one phase over every analysed document, in order, against the index of the project as it
    stands before the phase. -/
def runPhase (phase : Step Unit) (p : Project) : Project :=
  let index := TypeIndex.build p.analyses
  (List.range p.documents.size).foldl (fun p i =>
    match p.documents[i]? with
    | some d =>
      match d.analysis with
      | some a =>
        let trees := p.documents.mapIdx fun j d => if j == i then none else d.analysis.map (·.tree)
        let (a, log) := runStep phase ⟨index, trees⟩ a p.log
        { p with documents := p.documents.set! i { d with analysis := some a }, log }
      | none => p
    | none => p) p

/-- Read every ZScript document's skeleton, and forget every other analysis. -/
def readSkeletons (p : Project) : Project :=
  p.documents.foldl (fun p d =>
    match d.kind with
    | .zscript =>
      let (a, log) := runStep (Analysis.skeleton d.id d.text) {} { file := d.id, tokens := [] } p.log
      { p with documents := p.documents.set! d.id { d with analysis := some a }, log }
    | .text => { p with documents := p.documents.set! d.id { d with analysis := none } }) p

/-- An include's location as a project path: normalized, without leading `/`, lowercased. -/
def includeKey (location : String) : String :=
  String.ofList ((Path.normalize location).toList.dropWhile (· == '/')) |>.toLower

/-- Point every include of document `i` at the document it names, given the lowercased paths. -/
def resolveIn (paths : List String) (p : Project) (i : Nat) : Project :=
  match p.documents[i]? with
  | some d =>
    match d.analysis with
    | none => p
    | some a =>
      let (a, p) := (a.tree.children 0).foldl (fun (a, p) id =>
        match a.tree.get? id with
        | some ⟨_, _, _, line, .inclusion location _⟩ =>
          let target := paths.findIdx? (· == includeKey location)
          let a := { a with tree := a.tree.modifyKind id fun _ => .inclusion location target }
          match target with
          | some _ => (a, p)
          | none =>
            let message := "included file '" ++ location ++ "' not found"
            ({ a with diagnostics := a.diagnostics.push ⟨.warning, message, line⟩ },
              p.record .warn (d.path ++ ": " ++ message))
        | _ => (a, p)) (a, p)
      { p with documents := p.documents.set! i { d with analysis := some a } }
  | none => p

/-- Point every include at its document. -/
def resolveIncludes (p : Project) : Project :=
  let paths := p.documents.toList.map (·.path.toLower)
  (List.range p.documents.size).foldl (resolveIn paths) p

/-- The number of errors and of warnings over all documents. -/
def counts (p : Project) : Nat × Nat :=
  p.documents.foldl (fun acc d => d.diagnostics.foldl (fun (e, w) x =>
    match x.severity with
    | .error => (e + 1, w)
    | .warning => (e, w + 1)) acc) (0, 0)

/-- Analyse every document again from its text. -/
def rebuild (p : Project) : Project :=
  let p := p.readSkeletons.resolveIncludes
  let p := (p.runPhase Analysis.addMembers).runPhase Analysis.link |>.runPhase Analysis.addBodies
  let (e, w) := p.counts
  p.record .info ("rebuilt " ++ toString p.documents.size ++ " documents: " ++ toString e ++
    " errors, " ++ toString w ++ " warnings")

/-- A project made in memory from `(path, text)` pairs, every one read as ZScript. -/
def ofSources (files : List (String × String)) : Project :=
  (files.foldl (fun (p : Project) (path, text) => (p.push path text (some .zscript)).2) {}).rebuild

/-- Add a ZScript document and rebuild; the answer is its index. -/
def addDocument (p : Project) (path text : String) : Nat × Project :=
  let (id, p) := p.push path text (some .zscript)
  (id, p.rebuild)

/-- Replace a document's text and rebuild. -/
def setContents (p : Project) (id : Nat) (text : String) : Except ProjectError Project :=
  match p.documents[id]? with
  | none => .error (.unknownDocument id)
  | some d =>
    .ok ({ p with documents := p.documents.set! id { d with text, modified := true } }).rebuild

/-- The document with index `id`. -/
def document? (p : Project) (id : Nat) : Option Document := p.documents[id]?

/-- The first document whose path equals `path` once both are normalized, ignoring ASCII case. -/
def findDocument (p : Project) (path : String) : Option Document :=
  let wanted := (Path.normalize path).toLower
  p.documents.find? (·.path.toLower == wanted)

/-- The semantic token under byte `offset` of document `id`. -/
def tokenAt (p : Project) (id : Nat) (offset : Nat) : Option SemanticToken :=
  (p.document? id).bind fun d => SemanticToken.at? d.semantic offset

/-- Whether any document has an error. -/
def hasErrors (p : Project) : Bool := p.documents.any fun d => (d.analysis.map (·.hasErrors)).getD false

end Project

/-- The states of a lone file, index `0`, after each of the first `upto` phases, every phase run
    against the index of that file alone and no other tree. Includes are not resolved. -/
def Analysis.stages (text : String) (upto : Nat) : List Analysis :=
  let first := (Project.runStep (Analysis.skeleton 0 text) {} { file := 0, tokens := [] } #[]).1
  let later := [Analysis.addMembers, Analysis.link, Analysis.addBodies]
  let (states, _) := later.foldl (fun (states, a) phase =>
    let a := (Project.runStep phase ⟨TypeIndex.build [a], #[]⟩ a #[]).1
    (states ++ [a], a)) ([first], first)
  states.take upto

end ZScript
