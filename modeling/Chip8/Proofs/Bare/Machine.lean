import Chip8.Fault
import Chip8.HostError
import Chip8.Memory
import Chip8.Random.Source
import Mathlib.Data.Int.Bitwise

/-! The machine on bare numbers: whole numbers of any size in lists of any length. No type keeps a
register to its byte or an index to its list. An instruction cuts a number where it says so and
nowhere else, and an index without a place in its list breaks it off, half done. -/
namespace Chip8

structure Bare where
  strict : Bool
  v : List Int
  i : Int
  pc : Int
  stack : List Int
  depth : Int
  fault : Option (FaultKind × Int × Int)
  memory : List Int
  pixels : List Bool
  changed : Bool
  held : List Bool
  waiting : Option Int
  delay : Int
  sound : Int
  source : Random.Source
  steps : Nat

namespace Bare

inductive Raised
  | index (n : Int)
  | refused (e : HostError)

/-- What was stored before something is raised stays stored. -/
abbrev Act : Type → Type := ExceptT Raised (StateM Bare)

def raise {α : Type} (r : Raised) : Act α := throw r

/-- The place in a list that an index means. Below zero it counts from the end. -/
def place? (length : Nat) (n : Int) : Option Nat :=
  if 0 ≤ n ∧ n < length then some n.toNat
  else if -length ≤ n ∧ n < 0 then some (n + length).toNat
  else none

def item {α : Type} (l : List α) (n : Int) : Act α :=
  match (place? l.length n).bind (l[·]?) with
  | some a => pure a
  | none => raise (.index n)

def replaced {α : Type} (l : List α) (n : Int) (a : α) : Act (List α) :=
  match place? l.length n with
  | some k => pure (l.set k a)
  | none => raise (.index n)

/-! Registers are stored as they are given, or cut to a byte. -/

def register (x : Int) : Act Int := do item (← get).v x

def putRegister (x n : Int) : Act Unit := do
  let v ← replaced (← get).v x n
  modify fun s => { s with v := v }

def setRegister (x n : Int) : Act Unit := putRegister x (n % 256)

def setPc (n : Int) : Act Unit := modify fun s => { s with pc := n % 65536 }

def setIndex (n : Int) : Act Unit := modify fun s => { s with i := n % 65536 }

def read (a : Int) : Act Int := do
  if 0 ≤ a ∧ a < 4096 then item (← get).memory a else return 0

def write (a n : Int) : Act Unit := do
  if 0 ≤ a ∧ a < 4096 then
    let memory ← replaced (← get).memory a (n % 256)
    modify fun s => { s with memory := memory }

def halt (kind : FaultKind) (opcode address : Int) : Act Unit :=
  modify fun s => { s with fault := some (kind, opcode, address) }

def stackFault (kind : FaultKind) (opcode address : Int) : Act Unit := do
  if (← get).strict then halt kind opcode address

def push (a opcode address : Int) : Act Unit := do
  let s ← get
  if 16 ≤ s.depth then stackFault .stackOverflow opcode address
  else
    let stack ← replaced s.stack s.depth a
    modify fun s => { s with stack := stack, depth := s.depth + 1 }

def pop (opcode address : Int) : Act (Option Int) := do
  let s ← get
  if s.depth = 0 then
    stackFault .stackUnderflow opcode address
    return none
  else
    modify fun s => { s with depth := s.depth - 1 }
    return some (← item s.stack (s.depth - 1))

/-! The screen and the keys. -/

def clear : Act Unit := modify fun s =>
  { s with pixels := s.pixels.map fun _ => false, changed := s.changed || s.pixels.any id }

/-- Flips the pixels of some cells, and tells which of them were lit. -/
def flipCells : List Int → Act (List Bool)
  | [] => return []
  | cell :: cells => do
    let lit ← item (← get).pixels cell
    let pixels ← replaced (← get).pixels cell (!lit)
    modify fun s => { s with pixels := pixels }
    return lit :: (← flipCells cells)

def rowCells (bits x y : Int) : List Int :=
  (List.range 8).filterMap fun (column : Nat) =>
    if x + column < 64 ∧ bits / 2 ^ (7 - column) % 2 = 1 then some (x + column + 64 * y) else none

def drawRows (x y address : Int) : List Nat → Act (List Bool)
  | [] => return []
  | row :: rows => do
    let bits ← read ((address + row) % 65536)
    let lit ← flipCells (if y + row < 32 then rowCells bits x (y + row) else [])
    return lit ++ (← drawRows x y address rows)

/-- The flag is raised at the end, and the collision told. -/
def draw (x y address height : Int) : Act Bool := do
  let lit ← drawRows x y address (List.range height.toNat)
  modify fun s => { s with changed := s.changed || !lit.isEmpty }
  return lit.any id

def isPressed (k : Int) : Act Bool := do
  if 0 ≤ k ∧ k < 16 then item (← get).held k else return false

def putKey (k : Int) (down : Bool) : Act Unit := do
  let held ← replaced (← get).held k down
  modify fun s => { s with held := held }

def setKey (k : Int) (down : Bool) : Act Unit := do
  if 0 ≤ k ∧ k < 16 then putKey k down
  else if (← get).strict then raise (.refused (.keyIndex k))

def releaseUpTo : Nat → Act Unit
  | 0 => return
  | k + 1 => do
    releaseUpTo k
    putKey k false

def setWaiting (r : Option Int) : Act Unit := modify fun s => { s with waiting := r }

end Bare

end Chip8
