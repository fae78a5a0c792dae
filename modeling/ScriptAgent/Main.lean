import ScriptAgent.Cli.Commands
import Std.Time.DateTime.Timestamp

/-!
# The command line

Runs the program on the disk and prints what it reports.
-/

namespace ScriptAgent.Cli

/-- Why something could not be done with a file of the disk: opening fails on a path through a file,
reading on a directory. -/
def FileError.ofDisk : IO.Error → FileError
  | .noFileOrDirectory .. => .notFound
  | .inappropriateType (some _) .. => .notDirectory
  | .inappropriateType none .. => .isDirectory
  | .userError _ => .notText
  | e => .other (toString e)

/-- What an attempt on the disk gives. -/
def attempt (x : IO α) : IO (Except FileError α) := do
  match ← x.toBaseIO with
  | .ok v => return .ok v
  | .error e => return .error (.ofDisk e)

/-- The files of the disk. -/
def disk : Files IO where
  present path := do ((← IO.currentDir) / path).pathExists
  isDirectory path := do ((← IO.currentDir) / path).isDir
  names path := do
    match ← attempt ((← IO.currentDir) / path).readDir with
    | .ok entries => return (entries.toList.map (·.fileName)).mergeSort fun a b => !(b < a)
    | .error _ => return []
  read path := attempt (IO.FS.readFile path)

/-- Starts the log: an error of it, if it cannot be kept. -/
def startLog (directory : String) : IO (Option (List String)) := do
  match ← attempt (IO.FS.createDirAll directory) with
  | .error e => return some ["Failed to create log directory", e.message]
  | .ok () =>
    match ← attempt (IO.FS.Handle.mk (directory ++ "/codeloop.log") .append) with
    | .error e => return some ["Failed to open log file", e.message]
    | .ok _ => return none

end ScriptAgent.Cli

open ScriptAgent.Cli in
/-- Runs the program with its arguments. -/
def main (args : List String) : IO UInt32 := do
  let now := (← Std.Time.Timestamp.now).toMillisecondsSinceUnixEpoch.val.toNat
  let s : Surroundings IO := { files := disk, env := fun name => IO.getEnv name, now, salt := now % 65536 }
  let report ← match ← startLog (← logDirectory s) with
    | some causes => pure { code := 1, lines := [], complaint := some (complaintOf ("Failed to setup logging" :: causes)) }
    | none => program s args
  report.lines.forM IO.println
  report.complaint.forM IO.eprintln
  return report.code.toUInt32
