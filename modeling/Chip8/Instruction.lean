import Chip8.Keypad.Basic

/-! Instruction words and what they ask for. Of the 65536 words, those that match one of the
thirty-four patterns are instructions. -/
namespace Chip8

/-- Operations between two registers. -/
inductive AluOp
  | copy | or | and | xor | add | sub | shiftRight | subFrom | shiftLeft
deriving DecidableEq

namespace AluOp

def result : AluOp → UInt8 → UInt8 → UInt8
  | copy, _, b => b
  | or, a, b => a ||| b
  | and, a, b => a &&& b
  | xor, a, b => a ^^^ b
  | add, a, b => a + b
  | sub, a, b => a - b
  | shiftRight, a, _ => a >>> 1
  | subFrom, a, b => b - a
  | shiftLeft, a, _ => a <<< 1

/-- What goes to the flag register: a carry, the absence of a borrow, or the bit shifted out. -/
def flag? : AluOp → UInt8 → UInt8 → Option Bool
  | copy, _, _ | or, _, _ | and, _, _ | xor, _, _ => none
  | add, a, b => some (255 < a.toNat + b.toNat)
  | sub, a, b => some (b ≤ a)
  | shiftRight, a, _ => some (a.toNat % 2 = 1)
  | subFrom, a, b => some (a ≤ b)
  | shiftLeft, a, _ => some (128 ≤ a.toNat)

end AluOp

/-- When the next instruction is skipped. -/
inductive Skip
  | equalByte (x : Fin 16) (b : UInt8)
  | differByte (x : Fin 16) (b : UInt8)
  | equal (x y : Fin 16)
  | differ (x y : Fin 16)
  | keyHeld (x : Fin 16)
  | keyUp (x : Fin 16)
deriving DecidableEq

inductive Instruction
  | clear
  | ret
  | jump (target : UInt16)
  | call (target : UInt16)
  | skip (condition : Skip)
  | setByte (x : Fin 16) (b : UInt8)
  | addByte (x : Fin 16) (b : UInt8)
  | alu (op : AluOp) (x y : Fin 16)
  | setIndex (target : UInt16)
  | jumpOffset (base : UInt16)
  | random (x : Fin 16) (mask : UInt8)
  | draw (x y height : Fin 16)
  | readDelay (x : Fin 16)
  | waitKey (x : Fin 16)
  | setDelay (x : Fin 16)
  | setSound (x : Fin 16)
  | addIndex (x : Fin 16)
  | glyph (x : Fin 16)
  | decimal (x : Fin 16)
  | save (x : Fin 16)
  | restore (x : Fin 16)
deriving DecidableEq

/-! The parts of a word: a family digit, two register digits, and the low digit, byte and
address. -/
namespace Word

def family (w : UInt16) : Nat := w.toNat / 4096

def x (w : UInt16) : Fin 16 := ⟨w.toNat / 256 % 16, by omega⟩

def y (w : UInt16) : Fin 16 := ⟨w.toNat / 16 % 16, by omega⟩

def n (w : UInt16) : Fin 16 := ⟨w.toNat % 16, by omega⟩

def byte (w : UInt16) : UInt8 := UInt8.ofNat (w.toNat % 256)

def address (w : UInt16) : UInt16 := UInt16.ofNat (w.toNat % 4096)

end Word

namespace AluOp

def ofDigit? : Nat → Option AluOp
  | 0x0 => some copy
  | 0x1 => some or
  | 0x2 => some and
  | 0x3 => some xor
  | 0x4 => some add
  | 0x5 => some sub
  | 0x6 => some shiftRight
  | 0x7 => some subFrom
  | 0xE => some shiftLeft
  | _ => none

end AluOp

namespace Instruction

/-- Words of the last family, told apart by the low byte. -/
def ofMisc? (x : Fin 16) : Nat → Option Instruction
  | 0x07 => some (readDelay x)
  | 0x0A => some (waitKey x)
  | 0x15 => some (setDelay x)
  | 0x18 => some (setSound x)
  | 0x1E => some (addIndex x)
  | 0x29 => some (glyph x)
  | 0x33 => some (decimal x)
  | 0x55 => some (save x)
  | 0x65 => some (restore x)
  | _ => none

def decode (w : UInt16) : Option Instruction :=
  match Word.family w with
  | 0x0 => if w = 0x00E0 then some clear else if w = 0x00EE then some ret else none
  | 0x1 => some (jump (Word.address w))
  | 0x2 => some (call (Word.address w))
  | 0x3 => some (skip (.equalByte (Word.x w) (Word.byte w)))
  | 0x4 => some (skip (.differByte (Word.x w) (Word.byte w)))
  | 0x5 => if Word.n w = 0 then some (skip (.equal (Word.x w) (Word.y w))) else none
  | 0x6 => some (setByte (Word.x w) (Word.byte w))
  | 0x7 => some (addByte (Word.x w) (Word.byte w))
  | 0x8 => (AluOp.ofDigit? (Word.n w)).map fun op => alu op (Word.x w) (Word.y w)
  | 0x9 => if Word.n w = 0 then some (skip (.differ (Word.x w) (Word.y w))) else none
  | 0xA => some (setIndex (Word.address w))
  | 0xB => some (jumpOffset (Word.address w))
  | 0xC => some (random (Word.x w) (Word.byte w))
  | 0xD => some (draw (Word.x w) (Word.y w) (Word.n w))
  | 0xE =>
    if Word.byte w = 0x9E then some (skip (.keyHeld (Word.x w)))
    else if Word.byte w = 0xA1 then some (skip (.keyUp (Word.x w)))
    else none
  | _ => ofMisc? (Word.x w) (w.toNat % 256)

end Instruction

end Chip8
