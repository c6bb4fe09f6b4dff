import ColumnLineage.Command.Run
import Std.Time.DateTime.Timestamp

/-!
# The program

Commands run on the machine itself. Results are printed, and what went wrong is said on the
channel for errors.
-/

namespace ColumnLineage

/-- The fault that an error of the machine means. -/
def FileFault.ofError : IO.Error → FileFault
  | .noFileOrDirectory .. => .missing
  | .inappropriateType _ code _ => if code = 20 then .notDirectory else .directory
  | e => .other (toString e)

/-- What an action gives, or the fault that stops it. -/
def machineAttempt {α : Type} (action : IO α) : IO (Except FileFault α) := do
  try
    return .ok (← action)
  catch e =>
    return .error (.ofError e)

def readMachineFile (path : String) : IO (Except FileFault String) := do
  match ← machineAttempt (IO.FS.readBinFile path) with
  | .error fault => return .error fault
  | .ok bytes =>
    match String.fromUTF8? bytes with
    | some text => return .ok text
    | none => return .error .notText

/-- What lies below a directory of the machine, behind the components that lead there. -/
partial def machineEntries (directory : IO.FS.DirEntry) (before : Path) (depth : Option Nat) :
    IO (List Entry) := do
  if depth = some 0 then return []
  let children ← try directory.path.readDir catch _ => pure #[]
  let found ← children.toList.mapM fun child => do
    let path := before ++ [child.fileName]
    if ← child.path.isDir then
      return ⟨path, true⟩ :: (← machineEntries child path (depth.map (· - 1)))
    return [⟨path, false⟩]
  return found.flatten

def machineTime : IO Timestamp := do
  let seconds := (← Std.Time.Timestamp.now).toSecondsSinceUnixEpoch.toInt
  match Timestamp.ofUnixSeconds? seconds.toNat with
  | some time => return time
  | none => throw (.userError "the time is out of range")

instance : Host IO where
  read := readMachineFile
  write path content := machineAttempt (IO.FS.writeFile path content)
  makeDirectories path := machineAttempt (if path.isEmpty then pure () else IO.FS.createDirAll path)
  isPresent path := (IO.FS.DirEntry.mk path "").root.pathExists
  isDirectory path := (IO.FS.DirEntry.mk path "").root.isDir
  below path depth := machineEntries ⟨path, "."⟩ [] depth
  here := do return (Path.ofText (← IO.currentDir).toString).filter (· ≠ "")
  now := machineTime
  print text := IO.print text

end ColumnLineage

def main (words : List String) : IO UInt32 := do
  let ending : ColumnLineage.Ending ← ColumnLineage.runWords words
  match ending with
  | .success | .findings => pure ()
  | .misuse => IO.eprint ColumnLineage.usage
  | .unreadable error => IO.eprintln ("Parse error: " ++ error.message)
  | .failure reason => IO.eprintln ("Error: " ++ reason.message)
  return UInt32.ofNat ending.code
