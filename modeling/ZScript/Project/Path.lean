/-!
# Project paths

Paths inside a project use `/` as separator: `Path.normalize` turns every `\` into `/` and
collapses runs of `/` into one, so normalizing twice changes nothing more. A file is ZScript when
its name starts with `zscript` or its extension is `zs`, `zsc` or `zc`, in any ASCII case.
-/

namespace ZScript

/-- How a project file is treated: parsed as ZScript, or kept as plain text. -/
inductive FileKind where
  | zscript
  | text
  deriving DecidableEq, Repr, Inhabited

/-- The kind's tag as written in reports. -/
def FileKind.tag : FileKind → String
  | .zscript => "ZScript"
  | .text => "Text"

namespace Path

/-- Normalize a path's characters, given the last character already written. -/
def normalizeChars : Option Char → List Char → List Char
  | _, [] => []
  | prev, c :: cs =>
    let c := if c == '\\' then '/' else c
    if c == '/' && prev == some '/' then normalizeChars prev cs
    else c :: normalizeChars (some c) cs

/-- `\` becomes `/` and runs of `/` collapse into one. -/
def normalize (p : String) : String := String.ofList (normalizeChars none p.toList)

/-- The last component of a path: what follows its last `/`. -/
def fileName (p : String) : String :=
  String.ofList ((p.toList.reverse.takeWhile (· != '/')).reverse)

/-- The extension of a file name: what follows its last `.`, if it has one. -/
def extension? (name : String) : Option String :=
  if name.toList.contains '.' then
    some (String.ofList ((name.toList.reverse.takeWhile (· != '.')).reverse))
  else none

end Path

/-- The kind of a project file, from its name. -/
def FileKind.detect (path : String) : FileKind :=
  let name := Path.fileName (Path.normalize path).toLower
  if name.startsWith "zscript" || ["zs", "zsc", "zc"].contains ((Path.extension? name).getD "") then
    .zscript
  else .text

end ZScript
