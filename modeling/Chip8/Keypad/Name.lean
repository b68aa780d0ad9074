import Chip8.Keypad.Basic
import Chip8.Text.Numeral
import Chip8.Text.Uppercase

/-! Names of keys: hexadecimal digits, or the block of a typewriter keyboard that lies like the
keypad. -/
namespace Chip8

inductive KeyLayout
  | hexadecimal
  | typewriter
deriving DecidableEq

namespace KeyLayout

/-- The keypad's square `123C 456D 789E A0BF` falls on `1234 QWER ASDF ZXCV`. -/
def typewriterKeys : List (Char × Key) := [
  ('1', 0x1), ('2', 0x2), ('3', 0x3), ('4', 0xC),
  ('Q', 0x4), ('W', 0x5), ('E', 0x6), ('R', 0xD),
  ('A', 0x7), ('S', 0x8), ('D', 0x9), ('F', 0xE),
  ('Z', 0xA), ('X', 0x0), ('C', 0xB), ('V', 0xF)]

/-- The letters A to F, and the decimal digits of any script. -/
def hexKey? (c : Char) : Option Key :=
  match c with
  | 'A' => some 0xA
  | 'B' => some 0xB
  | 'C' => some 0xC
  | 'D' => some 0xD
  | 'E' => some 0xE
  | 'F' => some 0xF
  | c => (Text.digitValue? c).map (Fin.ofNat 16)

/-- One leading `0X` does not count. -/
def withoutMarker : List Char → List Char
  | '0' :: 'X' :: cs => cs
  | cs => cs

/-- The key of a name in upper case with no blanks around it. -/
def plainKey? : KeyLayout → List Char → Option Key
  | hexadecimal, cs =>
    match withoutMarker cs with
    | [c] => hexKey? c
    | _ => none
  | typewriter, [c] => typewriterKeys.lookup c
  | typewriter, _ => none

def plainName (name : String) : List Char := Text.upper (Text.strip name.toList)

def key (layout : KeyLayout) (name : String) : Except HostError Key :=
  match layout.plainKey? (plainName name) with
  | some k => .ok k
  | none => .error (.keyName name)

end KeyLayout

/-- A named key always exists, so a keypad's strictness is of no account. -/
def Keypad.setNamed (p : Keypad) (layout : KeyLayout) (name : String) (down : Bool) :
    Except HostError Keypad :=
  (layout.key name).map fun k => p.put k down

end Chip8
