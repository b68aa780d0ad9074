import Chip8.Text.Quoted

/-! Misuse by the host. A fault of the running program is not among these: it is a value in the
machine. -/
namespace Chip8

/-- What a library that this one uses has raised: its kind, and what it says. -/
structure ForeignError where
  kind : String
  message : String
deriving DecidableEq

inductive HostError
  /-- A misuse told in words alone. -/
  | general (reason : String)
  /-- A program that does not fit: its size and the largest size that does. -/
  | programSize (size limit : Int)
  | keyIndex (index : Int)
  /-- A key name without meaning, as it was given. -/
  | keyName (name : String)
  /-- A program file that cannot be used, and where it is. -/
  | romFile (reason : String) (path : Option String)
  | pixelOutside (x y : Int)
  /-- A sprite cell whose number no pixel has. -/
  | cellOutside (cell : Int)
  | scale (scale : Int)
  | foreign (e : ForeignError)
  /-- A file name that holds a NUL. -/
  | nulInName
deriving DecidableEq

namespace HostError

/-- The errors that this library itself defines and hosts are to expect. The others are slips of
the host's own code. -/
def expected : HostError → Bool
  | general _ | programSize _ _ | keyIndex _ | keyName _ | romFile _ _ => true
  | pixelOutside _ _ | cellOutside _ | scale _ | foreign _ | nulInName => false

/-- The number of a cell is first read into a signed word of 64 bits. -/
def message : HostError → String
  | general reason => reason
  | programSize size limit => s!"program is {size} bytes, the program area holds at most {limit}"
  | keyIndex index => s!"key index must be 0-15, got {index}"
  | keyName name => s!"unknown key name: {Text.quoted name}"
  | romFile reason (some path) => if path.isEmpty then reason else s!"{path}: {reason}"
  | romFile reason none => reason
  | pixelOutside x y => s!"pixel ({x}, {y}) is outside 64x32"
  | cellOutside cell =>
    if -0x8000000000000000 ≤ cell ∧ cell < 0x8000000000000000 then "list index out of range"
    else "cannot fit 'int' into an index-sized integer"
  | scale n => s!"scale must be at least 1, got {n}"
  | foreign e => e.message
  | nulInName => "embedded null byte"

end HostError

end Chip8
