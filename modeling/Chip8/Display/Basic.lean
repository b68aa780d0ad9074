import Chip8.HostError

/-! The screen: 64 by 32 pixels in row order, and a flag that tells the host that some pixel
flipped. Only the host lowers the flag. -/
namespace Chip8

/-- Pixel (x, y) has number x + 64 y. -/
abbrev Pixels : Type := Vector Bool 2048

structure Display where
  pixels : Pixels
  changed : Bool
deriving DecidableEq

namespace Display

def dark : Pixels := Vector.replicate 2048 false

/-- Width and height. -/
def size : Nat × Nat := (64, 32)

def blank : Display := ⟨dark, false⟩

/-- Raises the flag only if something was lit. -/
def clear (d : Display) : Display := ⟨dark, d.changed || d.pixels.any id⟩

def setChanged (d : Display) (b : Bool) : Display := { d with changed := b }

/-- The flag as it was, and the screen with the flag lowered. -/
def consumeChanged (d : Display) : Bool × Display := (d.changed, d.setChanged false)

def lit (d : Display) (x : Fin 64) (y : Fin 32) : Bool :=
  d.pixels.get ⟨x + 64 * y, by omega⟩

def pixel (d : Display) (x y : Int) : Except HostError Bool :=
  if h : (0 ≤ x ∧ x < 64) ∧ 0 ≤ y ∧ y < 32 then
    .ok (d.lit ⟨x.toNat, by omega⟩ ⟨y.toNat, by omega⟩)
  else .error (.pixelOutside x y)

def row (d : Display) (y : Fin 32) : List Bool :=
  (List.finRange 64).map fun x => d.lit x y

def rows (d : Display) : List (List Bool) := (List.finRange 32).map d.row

def litCount (d : Display) : Nat := d.pixels.toList.count true

/-- One line per row, without a newline at the end. -/
def text (d : Display) (on off : String) : String :=
  "\n".intercalate (d.rows.map fun r => String.join (r.map fun b => if b then on else off))

def screenText (d : Display) : String := d.text "#" "."

end Display

end Chip8
