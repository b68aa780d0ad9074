import Chip8.Display.Draw
import Chip8.Instruction
import Chip8.Machine.Basic

/-! What each instruction does to the machine. -/
namespace Chip8.Machine

def spriteSource (m : Machine) : SpriteSource := fun a => m.memory.read a.toNat

def holds (m : Machine) : Skip → Bool
  | .equalByte x b => m.register x == b
  | .differByte x b => m.register x != b
  | .equal x y => m.register x == m.register y
  | .differ x y => m.register x != m.register y
  | .keyHeld x => m.keypad.isPressed (m.register x).toNat
  | .keyUp x => !m.keypad.isPressed (m.register x).toNat

def skipNext (m : Machine) : Machine := m.setPc (m.pc + 2)

/-- A lenient machine takes no note of a stack fault. -/
def stackFault (m : Machine) (kind : FaultKind) (opcode address : UInt16) : Machine :=
  if m.config.strict then m.halt ⟨kind, opcode, address⟩ else m

/-- The flag comes last, so it stands even where it shares its register with the result. -/
def alu (m : Machine) (op : AluOp) (x y : Fin 16) : Machine :=
  let r := m.setRegister x (op.result (m.register x) (m.register y))
  match op.flag? (m.register x) (m.register y) with
  | some b => r.setFlag b
  | none => r

def random (m : Machine) (x : Fin 16) (mask : UInt8) : Machine :=
  let (b, source) := m.source.draw
  (m.setSource source).setRegister x (b &&& mask)

def draw (m : Machine) (x y height : Fin 16) : Machine :=
  let r := m.display.draw m.spriteSource (m.register x).toNat (m.register y).toNat m.i.toNat height
  (m.setDisplay r.display).setFlag r.collided

/-- Writes at consecutive addresses, which wrap at 16 bits. -/
def storeAt (store : Memory) (a : UInt16) : List UInt8 → Memory
  | [] => store
  | b :: bs => storeAt (store.write a.toNat b) (a + 1) bs

def digits (b : UInt8) : List UInt8 := [b / 100, b / 10 % 10, b % 10]

def decimal (m : Machine) (x : Fin 16) : Machine :=
  m.setMemory (storeAt m.memory m.i (digits (m.register x)))

def save (m : Machine) (x : Fin 16) : Machine :=
  m.setMemory (storeAt m.memory m.i (m.v.toList.take (x + 1)))

def restored (m : Machine) (x r : Fin 16) : UInt8 :=
  if r ≤ x then m.memory.read (m.i + UInt16.ofNat r).toNat else m.register r

def restore (m : Machine) (x : Fin 16) : Machine :=
  { m with v := Vector.ofFn (m.restored x) }

/-- Runs one instruction. `pc` already points behind it; `opcode` and `address` are its word and
its place, for the report of a stack fault. -/
def execute (m : Machine) (opcode address : UInt16) : Instruction → Machine
  | .clear => m.setDisplay m.display.clear
  | .ret =>
    match m.stack.pop? with
    | some (target, rest) => (m.setStack rest).setPc target
    | none => m.stackFault .stackUnderflow opcode address
  | .jump target => m.setPc target
  | .call target =>
    match m.stack.push? m.pc with
    | some pushed => (m.setStack pushed).setPc target
    | none =>
      if m.config.strict then m.halt ⟨.stackOverflow, opcode, address⟩ else m.setPc target
  | .skip condition => if m.holds condition then m.skipNext else m
  | .setByte x b => m.setRegister x b
  | .addByte x b => m.setRegister x (m.register x + b)
  | .alu op x y => m.alu op x y
  | .setIndex target => m.setIndex target
  | .jumpOffset base => m.setPc (base + (m.register 0).toUInt16)
  | .random x mask => m.random x mask
  | .draw x y height => m.draw x y height
  | .readDelay x => m.setRegister x m.timers.delay
  | .waitKey x => m.setKeypad (m.keypad.wait x)
  | .setDelay x => m.setDelay (m.register x)
  | .setSound x => m.setSound (m.register x)
  | .addIndex x => m.setIndex (m.i + (m.register x).toUInt16)
  | .glyph x => m.setIndex (5 * ((m.register x).toUInt16 % 16))
  | .decimal x => m.decimal x
  | .save x => m.save x
  | .restore x => m.restore x

/-- A word that is no instruction halts the machine. -/
def executeWord (m : Machine) (opcode address : UInt16) : Machine :=
  match Instruction.decode opcode with
  | some i => m.execute opcode address i
  | none => m.halt ⟨.unrecognizedOpcode, opcode, address⟩

end Chip8.Machine
