import Chip8.Fault
import Chip8.HostError

/-! What is noted down for whoever runs the machine. -/
namespace Chip8

inductive Level
  | debug
  | warning
deriving DecidableEq

def Level.label : Level → String
  | debug => "DEBUG"
  | warning => "WARNING"

inductive Record
  | loaded (size : Nat)
  | reset
  | halted (fault : Fault)
  | keyRejected (index : Int)
  | waitingForKey
deriving DecidableEq

namespace Record

def level : Record → Level
  | loaded _ | reset | waitingForKey => .debug
  | halted _ | keyRejected _ => .warning

def text : Record → String
  | loaded size => s!"Loaded {size} program bytes at $200"
  | reset => "Emulator reset"
  | halted fault => "Execution halted: " ++ fault.message
  | keyRejected index => s!"Rejected key index {index}"
  | waitingForKey => "Program is waiting for a key, stopping"

/-- A program that is refused leaves no record. -/
def ofLoad {α : Type} (program : List UInt8) : Except HostError α → List Record
  | .ok _ => [.loaded program.length]
  | .error _ => []

/-- Only a key that is refused leaves a record. -/
def ofSetKey {α : Type} (index : Int) : Except HostError α → List Record
  | .ok _ => []
  | .error _ => [.keyRejected index]

end Record

end Chip8
