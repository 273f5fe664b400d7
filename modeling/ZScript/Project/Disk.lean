/-!
# Disks

A project on disk is read and saved through a `FileSystem`: whether a path is a directory, the
entries of a directory, and reading and writing a file's bytes, in some monad. Failures are
`IoError`s, classified as the operating system classifies them. Appending to a file creates it
when it is missing, as a log file is opened.

`MemoryDisk` is a file system held in memory: files with their bytes, and directories. A path's
parent directories exist when it does. A path is `/`-separated and walked as the system walks it:
`.` and repeated `/` stay, `..` goes up, nothing may follow a file (not even a `/`), a name is at
most 255 bytes and a path less than 4096, and a null character is refused outright.
-/

namespace ZScript

/-- Why an operation on a file failed, as the operating system classifies it. -/
inductive IoError where
  | notFound
  | notADirectory
  | isADirectory
  | permissionDenied
  | alreadyExists
  /-- A path component longer than a name may be, or a path longer than a path may be. -/
  | nameTooLong
  /-- A path that holds a null character, which no system call can be given. -/
  | nulInPath
  /-- Any other failure: the system's error number and its description. -/
  | other (code : Nat) (description : String)
  deriving Inhabited

namespace IoError

/-- The name of the error's class. -/
def kind : IoError → String
  | .notFound => "NotFound"
  | .notADirectory => "NotADirectory"
  | .isADirectory => "IsADirectory"
  | .permissionDenied => "PermissionDenied"
  | .alreadyExists => "AlreadyExists"
  | .nameTooLong => "InvalidFilename"
  | .nulInPath => "InvalidInput"
  | .other _ _ => "Uncategorized"

/-- The system's error number; a null character is refused before the system is asked. -/
def code? : IoError → Option Nat
  | .notFound => some 2
  | .notADirectory => some 20
  | .isADirectory => some 21
  | .permissionDenied => some 13
  | .alreadyExists => some 17
  | .nameTooLong => some 36
  | .nulInPath => none
  | .other c _ => some c

/-- The system's description of the error. -/
def description : IoError → String
  | .notFound => "No such file or directory"
  | .notADirectory => "Not a directory"
  | .isADirectory => "Is a directory"
  | .permissionDenied => "Permission denied"
  | .alreadyExists => "File exists"
  | .nameTooLong => "File name too long"
  | .nulInPath => "file name contained an unexpected NUL byte"
  | .other _ d => d

/-- The error as a sentence: `No such file or directory (os error 2)`. -/
def message (e : IoError) : String :=
  match e.code? with
  | some c => e.description ++ " (os error " ++ toString c ++ ")"
  | none => e.description

/-- The error in full detail: `Os { code: 2, kind: NotFound, message: "…" }`. -/
def detail (e : IoError) : String :=
  match e.code? with
  | some c =>
    "Os \x7b code: " ++ toString c ++ ", kind: " ++ e.kind ++ ", message: \"" ++
      e.description ++ "\" \x7d"
  | none => "Error \x7b kind: " ++ e.kind ++ ", message: \"" ++ e.description ++ "\" \x7d"

end IoError

/-- What reading and saving a project needs of a file system, in the monad `m`. -/
structure FileSystem (m : Type → Type) where
  isDir : String → m Bool
  /-- The entries of a directory: each name, and whether it is a directory. -/
  entries : String → m (Except IoError (List (String × Bool)))
  read : String → m (Except IoError ByteArray)
  write : String → ByteArray → m (Except IoError Unit)
  /-- Add bytes at the end of a file, creating it when it is missing. -/
  append : String → ByteArray → m (Except IoError Unit)

namespace Path

/-- A path without its trailing `/`s (the root `/` stays). -/
def trimEnd (p : String) : String :=
  let cs := p.toList.reverse.dropWhile (· == '/')
  if cs.isEmpty && p.startsWith "/" then "/" else String.ofList cs.reverse

/-- `dir` joined with `name`. -/
def join (dir name : String) : String :=
  if dir.isEmpty then name else if dir.endsWith "/" then dir ++ name else dir ++ "/" ++ name

/-- The components of a path, without empty ones and `.`. -/
def components (p : String) : List String := (p.splitOn "/").filter fun c => c != "" && c != "."

/-- The last component of a path; none when it is `..` or there is none. -/
def lastName? (p : String) : Option String :=
  match (components p).getLast? with
  | some ".." => none
  | some n => some n
  | none => none

/-- The path without its last component; none for a root or an empty path. -/
def parent? (p : String) : Option String :=
  let t := trimEnd p
  match lastName? t with
  | none => none
  | some n =>
    let cs := t.toList
    let before := (cs.take (cs.length - n.length)).reverse.dropWhile (· == '/') |>.reverse
    if before.isEmpty && t.startsWith "/" then some "/" else some (String.ofList before)

end Path

/-- A file system held in memory. -/
structure MemoryDisk where
  /-- Every file, by path, with its bytes. -/
  files : List (String × ByteArray) := []
  /-- Directories that hold nothing, or that must exist on their own. -/
  dirs : List String := []
  deriving Inhabited

namespace MemoryDisk

/-- The paths of the strict ancestors of `p`, outermost first. -/
def ancestors (p : String) : List String :=
  let cs := Path.components p
  let lead := if p.startsWith "/" then "/" else ""
  (List.range cs.length).map fun k => lead ++ "/".intercalate (cs.take k)

/-- Whether the path `p`, written without `.`, `..` or repeated `/`, is a directory: a listed
    one, or an ancestor of a file or directory. -/
def holdsDir (d : MemoryDisk) (p : String) : Bool :=
  let p := Path.trimEnd p
  d.dirs.any (Path.trimEnd · == p) ||
    d.files.any (fun (f, _) => (ancestors f).contains p) ||
    d.dirs.any fun x => (ancestors x).contains p

/-- The file at the path `p`, written without `.`, `..` or repeated `/`. -/
def file? (d : MemoryDisk) (p : String) : Option ByteArray := (d.files.find? (·.1 == p)).map (·.2)

/-- What a path names on a memory disk. -/
inductive Found where
  /-- A file, at its path written without `.`, `..` or repeated `/`. -/
  | file (path : String)
  /-- A directory, at its path so written. -/
  | dir (path : String)
  /-- Nothing, in a directory that exists; a file may be made there unless the path ends in
      `/`. -/
  | absent (path : String) (endsInSlash : Bool)
  deriving Inhabited

/-- The longest name a path component may have, in bytes. -/
def nameMax : Nat := 255

/-- The longest path, in bytes, the null that ends it included. -/
def pathMax : Nat := 4096

/-- The path of the components `cs` below the root. -/
def canon (cs : List String) : String := "/" ++ "/".intercalate cs

/-- Walk the pieces of a path between its `/`s from the directory `here` (its components). An
    empty piece and `.` stay, `..` goes up (the root is its own parent) and a name goes down. A
    name longer than `nameMax` bytes is refused when it is looked up. A file ends the walk, and it
    is an error when anything follows it, even a lone `/`; a missing name ends it too, and it is
    an error when a name, `.` or `..` follows it. -/
def walk (d : MemoryDisk) (here : List String) : List String → Except IoError Found
  | [] => .ok (.dir (canon here))
  | part :: rest =>
    if part == "" || part == "." then d.walk here rest
    else if part == ".." then d.walk here.dropLast rest
    else if nameMax < part.utf8ByteSize then .error .nameTooLong
    else
      let next := here ++ [part]
      let p := canon next
      if d.holdsDir p then d.walk next rest
      else if (d.file? p).isSome then
        if rest.isEmpty then .ok (.file p) else .error .notADirectory
      else if rest.all (· == "") then .ok (.absent p !rest.isEmpty)
      else .error .notFound

/-- What the path `p` names. A path with a null character is refused before it reaches the
    system, an empty path or one of `pathMax` bytes or more by the system before the walk, and
    the walk starts at the root, which is also the current directory. -/
def locate (d : MemoryDisk) (p : String) : Except IoError Found :=
  if p.contains (Char.ofNat 0) then .error .nulInPath
  else if p.isEmpty then .error .notFound
  else if pathMax ≤ p.utf8ByteSize then .error .nameTooLong
  else d.walk [] (p.splitOn "/")

/-- Whether `p` names a directory. -/
def isDir (d : MemoryDisk) (p : String) : Bool :=
  match d.locate p with
  | .ok (.dir _) => true
  | _ => false

/-- Read the file `p` names. -/
def read (d : MemoryDisk) (p : String) : Except IoError ByteArray :=
  match d.locate p with
  | .ok (.file q) => match d.file? q with
    | some b => .ok b
    | none => .error .notFound
  | .ok (.dir _) => .error .isADirectory
  | .ok (.absent ..) => .error .notFound
  | .error e => .error e

/-- The entries of the directory at the path `p`, written without `.`, `..` or repeated `/`. -/
def listing (d : MemoryDisk) (p : String) : List (String × Bool) :=
  let under (x : String) : Option (List String) :=
    let pre := if p.endsWith "/" then p else p ++ "/"
    if x.startsWith pre then some (Path.components (x.drop pre.length).toString) else none
  let fromFiles := d.files.filterMap fun (f, _) => (under f).bind fun cs =>
    match cs with
    | [n] => some (n, false)
    | n :: _ => some (n, true)
    | [] => none
  let fromDirs := d.dirs.filterMap fun x => (under x).bind fun cs => cs.head?.map (·, true)
  (fromFiles ++ fromDirs).foldl (fun acc e => if acc.any (·.1 == e.1) then acc else acc ++ [e]) []

/-- The entries of the directory `p` names. -/
def entries (d : MemoryDisk) (p : String) : Except IoError (List (String × Bool)) :=
  match d.locate p with
  | .ok (.dir q) => .ok (d.listing q)
  | .ok (.file _) => .error .notADirectory
  | .ok (.absent ..) => .error .notFound
  | .error e => .error e

/-- The disk with `bytes` as the file at the path `q`, in place of the file there or after the
    other files. -/
def put (d : MemoryDisk) (q : String) (bytes : ByteArray) : MemoryDisk :=
  if (d.file? q).isSome then
    { d with files := d.files.map fun (f, b) => if f == q then (f, bytes) else (f, b) }
  else { d with files := d.files ++ [(q, bytes)] }

/-- Write the file `p` names, making it in its directory when it is missing. -/
def write (d : MemoryDisk) (p : String) (bytes : ByteArray) : Except IoError MemoryDisk :=
  match d.locate p with
  | .ok (.file q) | .ok (.absent q false) => .ok (d.put q bytes)
  | .ok (.absent _ true) | .ok (.dir _) => .error .isADirectory
  | .error e => .error e

/-- Add bytes at the end of the file `p` names, making it when it is missing. -/
def append (d : MemoryDisk) (p : String) (bytes : ByteArray) : Except IoError MemoryDisk :=
  match d.locate p with
  | .ok (.file q) => .ok (d.put q ((d.file? q).getD ByteArray.empty ++ bytes))
  | .ok (.absent q false) => .ok (d.put q bytes)
  | .ok (.absent _ true) | .ok (.dir _) => .error .isADirectory
  | .error e => .error e

/-- The memory disk as a file system whose state is the disk. -/
def fileSystem : FileSystem (StateM MemoryDisk) where
  isDir p := return (← get).isDir p
  entries p := return (← get).entries p
  read p := return (← get).read p
  write p b := do
    match (← get).write p b with
    | .ok d => set d; return .ok ()
    | .error e => return .error e
  append p b := do
    match (← get).append p b with
    | .ok d => set d; return .ok ()
    | .error e => return .error e

end MemoryDisk

end ZScript
