import Chip8.Text.Numeral

/-! What can stop a program for good. -/
namespace Chip8

inductive FaultKind
  | unrecognizedOpcode
  | stackOverflow
  | stackUnderflow
deriving DecidableEq

namespace FaultKind

def number : FaultKind → Nat
  | unrecognizedOpcode => 1
  | stackOverflow => 2
  | stackUnderflow => 3

def phrase : FaultKind → String
  | unrecognizedOpcode => "Unrecognized opcode"
  | stackOverflow => "Stack overflow on"
  | stackUnderflow => "Stack underflow on"

def describe (kind : FaultKind) (opcode address : Int) : String :=
  kind.phrase ++ " " ++ Text.hex 4 opcode ++ " at $" ++ Text.hex 3 address

end FaultKind

/-- `address` is where `opcode` was fetched. -/
structure Fault where
  kind : FaultKind
  opcode : UInt16
  address : UInt16
deriving DecidableEq

def Fault.message (f : Fault) : String := f.kind.describe f.opcode.toNat f.address.toNat

end Chip8
