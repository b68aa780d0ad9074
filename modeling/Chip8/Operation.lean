import Chip8.Keypad.Name
import Chip8.Machine.Pacing
import Chip8.Record

/-! Everything a host can do to a machine, as values: one operation, its answer, the records it
leaves, and the machine after it. An operation that fails leaves the machine as it was. -/
namespace Chip8

inductive Operation
  | load (program : List UInt8)
  | step
  | run (n : Int)
  | runFrame (n : Int)
  | runPaced (maxSteps perTick : Int)
  | tick
  | reset
  | resetCpu
  | setKey (index : Int) (down : Bool)
  | setNamedKey (layout : KeyLayout) (name : String) (down : Bool)
  | releaseAll
  | poke (address value : Int)
  | setPc (value : Int)
  | setIndex (value : Int)
  | setRegister (r : Fin 16) (value : UInt8)
  | setDelay (value : UInt8)
  | setSound (value : UInt8)
  | setWaiting (r : Option (Fin 16))
  | setChanged (b : Bool)
  | consumeChanged
deriving DecidableEq

inductive Answer
  | nothing
  | flag (b : Bool)
  | count (n : Nat)
  | pace (p : Pace)
deriving DecidableEq

structure Reply where
  answer : Except HostError Answer
  records : List Record

namespace Machine

/-- A frame without a size of its own. -/
def defaultFrame : Int := 10

def silent (m : Machine) : Reply × Machine := (⟨.ok .nothing, []⟩, m)

/-- The records of the halts that came about from one machine to a later one. -/
def haltRecords (before after : Machine) : List Record :=
  (after.faults.drop before.faults.length).map .halted

/-- The reply of an operation that runs instructions. -/
def ran (before : Machine) (answer : Answer) (after : Machine) : Reply × Machine :=
  (⟨.ok answer, before.haltRecords after⟩, after)

/-- The reply of an operation that the library may refuse. -/
def attempted (m : Machine) (result : Except HostError Machine) (records : List Record) :
    Reply × Machine :=
  match result with
  | .ok after => (⟨.ok .nothing, records⟩, after)
  | .error e => (⟨.error e, records⟩, m)

def setKey (m : Machine) (index : Int) (down : Bool) : Except HostError Machine :=
  (m.keypad.setKey m.config.strict index down).map m.setKeypad

def setNamedKey (m : Machine) (layout : KeyLayout) (name : String) (down : Bool) :
    Except HostError Machine :=
  (m.keypad.setNamed layout name down).map m.setKeypad

def paceRecords (p : Pace) : List Record := if p.ending = .blocked then [.waitingForKey] else []

def perform (m : Machine) : Operation → Reply × Machine
  | .load program =>
    let result := m.load program
    m.attempted result (Record.ofLoad program result)
  | .step =>
    let (executed, after) := m.step
    m.ran (.flag executed) after
  | .run n =>
    let (k, after) := m.run n
    m.ran (.count k) after
  | .runFrame n =>
    let (k, after) := m.runFrame n
    m.ran (.count k) after
  | .runPaced maxSteps perTick =>
    let (p, after) := m.runPaced maxSteps perTick
    (⟨.ok (.pace p), m.haltRecords after ++ paceRecords p⟩, after)
  | .tick => m.tick.silent
  | .reset => (⟨.ok .nothing, [.reset]⟩, m.reset)
  | .resetCpu => m.resetCpu.silent
  | .setKey index down =>
    let result := m.setKey index down
    m.attempted result (Record.ofSetKey index result)
  | .setNamedKey layout name down => m.attempted (m.setNamedKey layout name down) []
  | .releaseAll => (m.setKeypad m.keypad.releaseAll).silent
  | .poke address value => (m.setMemory (m.memory.poke address value)).silent
  | .setPc value => (m.setPc (UInt16.ofInt value)).silent
  | .setIndex value => (m.setIndex (UInt16.ofInt value)).silent
  | .setRegister r value => (m.setRegister r value).silent
  | .setDelay value => (m.setDelay value).silent
  | .setSound value => (m.setSound value).silent
  | .setWaiting r => (m.setKeypad { m.keypad with waiting := r }).silent
  | .setChanged b => (m.setDisplay (m.display.setChanged b)).silent
  | .consumeChanged =>
    let (changed, display) := m.display.consumeChanged
    (⟨.ok (.flag changed), []⟩, m.setDisplay display)

/-- Performs one operation after the other, failed ones included. -/
def performAll (m : Machine) : List Operation → List Reply × Machine
  | [] => ([], m)
  | op :: ops =>
    let (reply, m) := m.perform op
    let (replies, last) := m.performAll ops
    (reply :: replies, last)

end Machine

end Chip8
