import Chip8.Operation
import Chip8.Proofs.Bare.Machine

/-! Instructions, steps and the host's operations on bare numbers. -/
namespace Chip8.Bare

def skipIf (condition : Bool) : Act Unit := do
  if condition then setPc ((← get).pc + 2)

def bit (b : Bool) : Int := if b then 1 else 0

/-- Between two registers. The flag is stored last. -/
def executeAlu (opcode address x y op : Int) : Act Unit := do
  let a ← register x
  let b ← register y
  match op with
  | 0x0 => putRegister x b
  | 0x1 => putRegister x (a.lor b)
  | 0x2 => putRegister x (a.land b)
  | 0x3 => putRegister x (a.xor b)
  | 0x4 =>
    setRegister x (a + b)
    putRegister 15 (bit (255 < a + b))
  | 0x5 =>
    setRegister x (a - b)
    putRegister 15 (bit (b ≤ a))
  | 0x6 =>
    putRegister x (a / 2)
    putRegister 15 (a % 2)
  | 0x7 =>
    setRegister x (b - a)
    putRegister 15 (bit (a ≤ b))
  | 0xE =>
    setRegister x (2 * a)
    putRegister 15 (a / 128 % 2)
  | _ => halt .unrecognizedOpcode opcode address

/-- Stores the registers from the first one on. -/
def saveUpTo : Nat → Act Unit
  | 0 => return
  | k + 1 => do
    saveUpTo k
    write (((← get).i + k) % 65536) (← register k)

def restoreUpTo : Nat → Act Unit
  | 0 => return
  | k + 1 => do
    restoreUpTo k
    putRegister k (← read (((← get).i + k) % 65536))

def saveDecimal (n : Int) : Act Unit := do
  let i := (← get).i
  write i (n / 100)
  write ((i + 1) % 65536) (n / 10 % 10)
  write ((i + 2) % 65536) (n % 10)

def executeMisc (opcode address x op : Int) : Act Unit := do
  match op with
  | 0x07 => putRegister x (← get).delay
  | 0x0A => setWaiting (some x)
  | 0x15 =>
    let n ← register x
    modify fun s => { s with delay := n }
  | 0x18 =>
    let n ← register x
    modify fun s => { s with sound := n }
  | 0x1E => setIndex ((← get).i + (← register x))
  | 0x29 => setIndex ((← register x) % 16 * 5)
  | 0x33 => saveDecimal (← register x)
  | 0x55 => saveUpTo (x + 1).toNat
  | 0x65 => restoreUpTo (x + 1).toNat
  | _ => halt .unrecognizedOpcode opcode address

def random (x mask : Int) : Act Unit := do
  let (b, source) := (← get).source.draw
  modify fun s => { s with source := source }
  putRegister x (mask.land b.toNat)

def ret (opcode address : Int) : Act Unit := do
  match ← pop opcode address with
  | some target => setPc target
  | none => return

/-- A call that overflows still jumps, unless it has halted the machine. -/
def call (opcode address target : Int) : Act Unit := do
  push (← get).pc opcode address
  if (← get).fault.isNone then setPc target

def executeWord (opcode address : Int) : Act Unit := do
  let x := opcode / 256 % 16
  let y := opcode / 16 % 16
  let n := opcode % 16
  let byte := opcode % 256
  let target := opcode % 4096
  match opcode / 4096 with
  | 0x0 =>
    if opcode = 0x00E0 then clear
    else if opcode = 0x00EE then ret opcode address
    else halt .unrecognizedOpcode opcode address
  | 0x1 => setPc target
  | 0x2 => call opcode address target
  | 0x3 => skipIf ((← register x) == byte)
  | 0x4 => skipIf ((← register x) != byte)
  | 0x5 =>
    if n = 0 then skipIf ((← register x) == (← register y))
    else halt .unrecognizedOpcode opcode address
  | 0x6 => putRegister x byte
  | 0x7 => setRegister x ((← register x) + byte)
  | 0x8 => executeAlu opcode address x y n
  | 0x9 =>
    if n = 0 then skipIf ((← register x) != (← register y))
    else halt .unrecognizedOpcode opcode address
  | 0xA => setIndex target
  | 0xB => setPc (target + (← register 0))
  | 0xC => random x byte
  | 0xD =>
    let collided ← draw (← register x) (← register y) (← get).i n
    putRegister 15 (bit collided)
  | 0xE =>
    if byte = 0x9E then skipIf (← isPressed (← register x))
    else if byte = 0xA1 then skipIf (!(← isPressed (← register x)))
    else halt .unrecognizedOpcode opcode address
  | 0xF => executeMisc opcode address x byte
  | _ => return

/-- Fetches, moves past the word, executes. -/
def cycle : Act Unit := do
  let address := (← get).pc
  let opcode := Int.lor (256 * (← read address)) (← read ((address + 1) % 65536))
  setPc (address + 2)
  executeWord opcode address

/-- Delivers the lowest held key to a machine that waits for one, and tells whether it can go on. -/
def ready : Act Bool := do
  let s ← get
  if s.fault.isSome then return false
  else
    match s.waiting with
    | none => return true
    | some r =>
      match s.held.findIdx? id with
      | none => return false
      | some k =>
        setRegister r k
        setWaiting none
        return true

def step : Act Bool := do
  if ← ready then
    cycle
    modify fun s => { s with steps := s.steps + 1 }
    return true
  else return false

def runFrom (executed : Nat) : Nat → Act Nat
  | 0 => return executed
  | n + 1 => do
    if ← step then runFrom (executed + 1) n else return executed

def run (n : Int) : Act Nat := runFrom 0 n.toNat

def countDown (t : Int) : Int := if 0 < t then t - 1 else t

def tick : Act Unit := modify fun s =>
  { s with delay := countDown s.delay, sound := countDown s.sound }

def runFrame (n : Int) : Act Nat := do
  let k ← run n
  tick
  return k

/-- Frames until the steps are spent, the machine has halted, or it waits with no key held. A frame
of no size would come again and again, and ends the run too. -/
def paceFrom (pace maxSteps : Int) (steps frames : Nat) : Act (Nat × Nat) := do
  if _ : steps < maxSteps then
    let k ← runFrame (min pace (maxSteps - steps))
    let s ← get
    if s.fault.isSome then return (steps + k, frames + 1)
    else if s.waiting.isSome && !s.held.any id then return (steps + k, frames + 1)
    else if _ : k = 0 then return (steps, frames + 1)
    else paceFrom pace maxSteps (steps + k) (frames + 1)
  else return (steps, frames)
termination_by (maxSteps - steps).toNat
decreasing_by omega

/-! The host's operations. -/

def resetCpu : Act Unit := modify fun s =>
  { s with
    v := List.replicate 16 0
    i := 0
    pc := 0x200
    stack := List.replicate 16 0
    depth := 0
    fault := none }

/-- Puts a list over the places from `a` on. -/
def overlay (l : List Int) (a : Nat) (xs : List Int) : List Int :=
  l.take a ++ xs ++ l.drop (a + xs.length)

def bytesOf (bs : List UInt8) : List Int := bs.map fun b => (b.toNat : Int)

def firstMemory : List Int := overlay (List.replicate 4096 0) 0 (bytesOf font)

def reset : Act Unit := do
  modify fun s => { s with memory := firstMemory }
  resetCpu
  modify fun s => { s with delay := 0, sound := 0 }
  releaseUpTo 16
  setWaiting none
  clear
  modify fun s => { s with steps := 0 }

def load (program : List UInt8) : Act Unit := do
  if 3584 < program.length then raise (.refused (.programSize program.length 3584))
  else modify fun s => { s with memory := overlay s.memory 0x200 (bytesOf program) }

def setNamedKey (layout : KeyLayout) (name : String) (down : Bool) : Act Unit := do
  match layout.key name with
  | .ok k => setKey k.val down
  | .error e => raise (.refused e)

def perform : Operation → Act Unit
  | .load program => load program
  | .step => do let _ ← step
  | .run n => do let _ ← run n
  | .runFrame n => do let _ ← runFrame n
  | .runPaced maxSteps pace => do let _ ← paceFrom pace maxSteps 0 0
  | .tick => tick
  | .reset => reset
  | .resetCpu => resetCpu
  | .setKey k down => setKey k down
  | .setNamedKey layout name down => setNamedKey layout name down
  | .releaseAll => releaseUpTo 16
  | .poke a n => write a n
  | .setPc n => setPc n
  | .setIndex n => setIndex n
  | .setRegister r b => putRegister r.val b.toNat
  | .setDelay b => modify fun s => { s with delay := b.toNat }
  | .setSound b => modify fun s => { s with sound := b.toNat }
  | .setWaiting r => setWaiting (r.map fun r => (r.val : Int))
  | .setChanged b => modify fun s => { s with changed := b }
  | .consumeChanged => modify fun s => { s with changed := false }

def start (config : Config) (source : Random.Source) : Bare where
  strict := config.strict
  v := List.replicate 16 0
  i := 0
  pc := 0x200
  stack := List.replicate 16 0
  depth := 0
  fault := none
  memory := firstMemory
  pixels := List.replicate 2048 false
  changed := false
  held := List.replicate 16 false
  waiting := none
  delay := 0
  sound := 0
  source := source
  steps := 0

/-- An operation that raises something is over. The host goes on with what it has left. -/
def after (s : Bare) : List Operation → Bare
  | [] => s
  | op :: ops => (perform op s).2.after ops

end Chip8.Bare
