import Chip8.Display.Basic

/-! Sprites: every set bit flips the pixel under it. A sprite is cut off at the right and lower
edges and does not come back on the other side. -/
namespace Chip8

/-- Supplies sprite rows by address. -/
abbrev SpriteSource : Type := UInt16 → UInt8

/-- Bit `column` of a row, counted from the left. -/
def spriteBit (bits : UInt8) (column : Nat) : Bool := bits.toNat.testBit (7 - column)

/-- Pixel numbers under the set bits of one row at `(x, y)`. -/
def rowCells (bits : UInt8) (x y : Int) : List Int :=
  (List.range 8).filterMap fun (column : Nat) =>
    if x + column < 64 ∧ spriteBit bits column then
      some (x + column + 64 * y)
    else none

/-- Pixel numbers under the set bits of a sprite, row after row. Row addresses wrap. -/
def spriteCells (source : SpriteSource) (x y address height : Int) : List Int :=
  (List.range height.toNat).flatMap fun (row : Nat) =>
    if y + row < 32 then rowCells (source (UInt16.ofInt (address + row))) x (y + row)
    else []

/-- The slot of a pixel number. Numbers below zero count from the end of the screen. -/
def slot? (cell : Int) : Option (Fin 2048) :=
  if h : 0 ≤ cell ∧ cell < 2048 then some ⟨cell.toNat, by omega⟩
  else if h : -2048 ≤ cell ∧ cell < 0 then some ⟨(cell + 2048).toNat, by omega⟩
  else none

/-- Pixels in the course of a draw: whether one was turned off, and the cell without a slot, if there
was one. -/
structure Drawing where
  pixels : Pixels
  collided : Bool
  outside : Option Int
deriving DecidableEq

namespace Drawing

def flip (d : Drawing) (k : Fin 2048) : Drawing :=
  { d with pixels := d.pixels.set k (!d.pixels[k]), collided := d.collided || d.pixels[k] }

/-- A cell without a slot ends the draw. What was flipped before it stays flipped. -/
def flipCells (d : Drawing) : List Int → Drawing
  | [] => d
  | cell :: cells =>
    match slot? cell with
    | some k => (d.flip k).flipCells cells
    | none => { d with outside := some cell }

end Drawing

/-- What a draw leaves behind. -/
structure Drawn where
  display : Display
  collided : Bool
  outside : Option Int
deriving DecidableEq

namespace Display

/-- A draw that runs into a cell without a slot leaves the flag alone. With `x` and `y` not below
zero there is no such cell. -/
def draw (d : Display) (source : SpriteSource) (x y address height : Int) : Drawn :=
  let cells := spriteCells source x y address height
  let r := (Drawing.mk d.pixels false none).flipCells cells
  ⟨⟨r.pixels, d.changed || (r.outside.isNone && !cells.isEmpty)⟩, r.collided, r.outside⟩

end Display

/-- The host learns of a collision, or of a cell without a slot. -/
def Drawn.answer (r : Drawn) : Except HostError Bool :=
  match r.outside with
  | none => .ok r.collided
  | some cell => .error (.cellOutside cell)

end Chip8
