import Chip8.Command.Failure
import Chip8.Command.Path
import Chip8.Memory

/-! What the command needs from its surroundings: a look at a name, one read, and one write. What it
reads is the program. -/
namespace Chip8.Command

inductive FileKind
  | file
  | directory
deriving DecidableEq

structure Host (m : Type → Type) where
  /-- What a name as typed stands for, if for anything. -/
  kind? : String → m (Option FileKind)
  read : Path → m (Except Failure (List UInt8))
  write : Path → List UInt8 → m (Except Failure Unit)

/-- An empty file is as useless as one that does not fit. -/
def checkRom (path : String) (bytes : List UInt8) : Except HostError (List UInt8) :=
  if bytes = [] then .error (.romFile "ROM is empty" path)
  else if maxProgramSize < bytes.length then
    .error (.romFile s!"ROM is {bytes.length} bytes, at most {maxProgramSize} fit in memory" path)
  else .ok bytes

/-- What the system has to say about a file becomes a statement about the program. -/
def unreadable (path : String) : Failure → Failure
  | .missing e | .forbidden e | .system e =>
    .misuse (.romFile s!"cannot read ROM: {e.reason}" path)
  | f => f

/-- The program in what a read brought. -/
def romOf (path : Path) : Except Failure (List UInt8) → Except Failure (List UInt8)
  | .error f => .error (unreadable path.text f)
  | .ok bytes => (checkRom path.text bytes).mapError .misuse

def readRom {m : Type → Type} [Monad m] (host : Host m) (path : Path) :
    m (Except Failure (List UInt8)) := do
  return romOf path (← host.read path)

end Chip8.Command
