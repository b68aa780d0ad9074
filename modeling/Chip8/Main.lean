import Chip8.Command.Run
import Chip8.Display.Png

/-! The command line program. -/
namespace Chip8.Command

def systemError (name : String) (e : IO.Error) : SystemError :=
  match e with
  | .noFileOrDirectory _ number reason | .permissionDenied _ number reason
  | .inappropriateType _ number reason | .invalidArgument _ number reason
  | .resourceExhausted _ number reason => ⟨some number.toNat, reason, some name⟩
  | e => ⟨none, toString e, none⟩

def attempt {α : Type} (name : String) (act : IO α) : IO (Except Failure α) := do
  try
    return .ok (← act)
  catch e =>
    return .error (.ofSystem (systemError name e))

/-- A directory can be opened like a file but not read. -/
def readKind (handle : IO.FS.Handle) : IO (Option FileKind) := do
  try
    let _ ← handle.read 1
    return some .file
  catch _ =>
    return some .directory

def kindOnDisk (name : String) : IO (Option FileKind) := do
  try
    let handle ← IO.FS.Handle.mk name .read
    readKind handle
  catch _ =>
    return none

def disk : Host IO where
  kind? := kindOnDisk
  read p := attempt p.text do return (← IO.FS.readBinFile p.text).toList
  write p bytes := attempt p.text do IO.FS.writeBinFile p.text ⟨bytes.toArray⟩

def usageText (e : UsageError) : String :=
  s!"Usage: {programName} [OPTIONS] ROM_FILE\nTry --help for help.\n\nError: {e.message}\n"

end Chip8.Command

open Chip8 Chip8.Command

def main (words : List String) : IO UInt32 := do
  let entropy := (← IO.getRandomBytes 16).toList.foldl (fun (n : Int) b => 256 * n + b.toNat) 0
  match ← invoke disk Sheet.imaging entropy words with
  | .error e =>
    IO.eprint (usageText e)
    return 2
  | .ok o =>
    IO.print o.stdout
    IO.eprint o.stderr
    return UInt32.ofNat o.exitCode.number
