import Chip8.CallStack
import Chip8.Display.Basic
import Chip8.Fault
import Chip8.Keypad.Basic
import Chip8.Memory
import Chip8.Random.Source
import Chip8.Timers

/-! The machine: all of its state in one value, and the small changes that instructions and the
host are made of. -/
namespace Chip8

/-- `seed` fixes the random bytes. `strict` reports what a lenient machine lets pass: calls too
deep, returns too many, and keys that do not exist. -/
structure Config where
  seed : Option Int := none
  strict : Bool := false
deriving DecidableEq

structure Machine where
  config : Config
  v : Vector UInt8 16
  i : UInt16
  pc : UInt16
  stack : CallStack
  /-- What halted the machine, each time that it was halted since the last reset. -/
  faults : List Fault
  memory : Memory
  display : Display
  keypad : Keypad
  timers : Timers UInt8
  source : Random.Source
  steps : Nat
deriving DecidableEq

namespace Machine

/-- A machine just switched on, with no program. -/
def initial (config : Config) (source : Random.Source) : Machine where
  config := config
  v := Vector.replicate 16 0
  i := 0
  pc := 0x200
  stack := .empty
  faults := []
  memory := .initial
  display := .blank
  keypad := .released
  timers := .stopped
  source := source
  steps := 0

/-- The source follows from the seed; without one it is that of `entropy`. -/
def ofConfig (config : Config) (entropy : Int) : Machine :=
  initial config (.ofSeed (config.seed.getD entropy))

/-- The fault of the last halt. -/
def fault (m : Machine) : Option Fault := m.faults.getLast?

def halted (m : Machine) : Bool := m.fault.isSome

def register (m : Machine) (r : Fin 16) : UInt8 := m.v[r]

def setRegister (m : Machine) (r : Fin 16) (b : UInt8) : Machine := { m with v := m.v.set r b }

theorem register_setRegister (m : Machine) (r q : Fin 16) (b : UInt8) :
    (m.setRegister r b).register q = if q = r then b else m.register q := by
  simp [register, setRegister, Vector.getElem_set, Fin.ext_iff, eq_comm]

/-- The last register doubles as a flag. -/
def setFlag (m : Machine) (b : Bool) : Machine := m.setRegister 15 (if b then 1 else 0)

def setIndex (m : Machine) (a : UInt16) : Machine := { m with i := a }

def setPc (m : Machine) (a : UInt16) : Machine := { m with pc := a }

def setTimers (m : Machine) (t : Timers UInt8) : Machine := { m with timers := t }

def setDelay (m : Machine) (b : UInt8) : Machine := m.setTimers { m.timers with delay := b }

def setSound (m : Machine) (b : UInt8) : Machine := m.setTimers { m.timers with sound := b }

def setStack (m : Machine) (s : CallStack) : Machine := { m with stack := s }

def setMemory (m : Machine) (store : Memory) : Machine := { m with memory := store }

def setDisplay (m : Machine) (d : Display) : Machine := { m with display := d }

def setKeypad (m : Machine) (p : Keypad) : Machine := { m with keypad := p }

def setSource (m : Machine) (s : Random.Source) : Machine := { m with source := s }

/-- Each halt leaves its own mark, to be told of. -/
def halt (m : Machine) (f : Fault) : Machine := { m with faults := m.faults ++ [f] }

theorem fault_halt (m : Machine) (f : Fault) : (m.halt f).fault = some f := List.getLast?_concat

def tick (m : Machine) : Machine := m.setTimers m.timers.tick

/-- Clears what the program counts with, and a fault. All else stays, a wait for a key too. -/
def resetCpu (m : Machine) : Machine :=
  { m with v := Vector.replicate 16 0, i := 0, pc := 0x200, stack := .empty, faults := [] }

/-- Back to power-on. The random source goes on from where it is, and a raised display flag stays
raised. -/
def reset (m : Machine) : Machine :=
  { m.resetCpu with
    memory := .initial
    timers := .stopped
    keypad := .released
    display := m.display.clear
    steps := 0 }

def load (m : Machine) (program : List UInt8) : Except HostError Machine :=
  (m.memory.load program).map m.setMemory

/-- The two bytes at `pc`, high byte first. -/
def fetch (m : Machine) : UInt16 :=
  UInt16.ofNat (256 * (m.memory.read m.pc.toNat).toNat + (m.memory.read (m.pc + 1).toNat).toNat)

end Machine

end Chip8
