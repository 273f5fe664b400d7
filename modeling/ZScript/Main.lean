import ZScript.Cli.Run

/-!
# The executable

The program runs against the machine's file system. Its failures are classified by their
system error numbers, as `IoError` classifies them. The interactive editor needs a terminal
this executable cannot take over, so a run without `--check` or `--dump-tokens` ends as a run
without a terminal does.
-/

namespace ZScript

open System

/-- A failure of the machine's file system as an `IoError`. -/
def IoError.ofHost : IO.Error → IoError
  | .noFileOrDirectory _ _ _ => .notFound
  | .alreadyExists _ _ _ => .alreadyExists
  | .permissionDenied _ _ _ => .permissionDenied
  | .inappropriateType _ code d =>
    if code == 20 then .notADirectory else if code == 21 then .isADirectory else .other code.toNat d
  | .invalidArgument _ code d => if code == 36 then .nameTooLong else .other code.toNat d
  | .otherError code d => if code == 36 then .nameTooLong else .other code.toNat d
  | e => .other 5 (toString e)

/-- Run `act`, catching the machine's failures. -/
def attempt {α : Type} (act : IO α) : IO (Except IoError α) := do
  try return .ok (← act) catch e => return .error (IoError.ofHost e)

/-- The machine's file system. -/
def hostDisk : FileSystem IO where
  isDir p := FilePath.isDir p
  entries p := attempt do
    let found ← FilePath.readDir p
    found.toList.mapM fun e => return (e.fileName, ← e.path.isDir)
  read p := attempt (IO.FS.readBinFile p)
  write p b := attempt (IO.FS.writeBinFile p b)
  append p b := attempt (IO.FS.withFile p .append fun h => h.write b)

end ZScript

/-- Run the program on the command line's words. -/
def main (words : List String) : IO UInt32 := do
  let out ← ZScript.Cli.run ZScript.hostDisk ZScript.Cli.noTerminal words
  IO.print out.stdout
  IO.eprint out.stderr
  return out.status.toUInt32
