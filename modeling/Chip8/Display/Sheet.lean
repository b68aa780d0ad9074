import Chip8.Display.Imaging

/-! Sheets of coloured places, kept in memory, and painting on them. -/
namespace Chip8

structure Rgb where
  red : UInt8
  green : UInt8
  blue : UInt8
deriving DecidableEq

def Rgb.color (c : Rgb) : Color := ⟨c.red.toNat, c.green.toNat, c.blue.toNat⟩

def channel? (n : Int) : Option UInt8 :=
  if 0 ≤ n ∧ n < 256 then some (UInt8.ofNat n.toNat) else none

def Color.rgb? (c : Color) : Option Rgb := do
  return ⟨← channel? c.red, ← channel? c.green, ← channel? c.blue⟩

namespace Box

def HasColumn (b : Box) (x : Nat) : Prop := b.left ≤ x ∧ x ≤ b.right

def HasRow (b : Box) (y : Nat) : Prop := b.top ≤ y ∧ y ≤ b.bottom

instance (b : Box) (x : Nat) : Decidable (b.HasColumn x) := inferInstanceAs (Decidable (_ ∧ _))

instance (b : Box) (y : Nat) : Decidable (b.HasRow y) := inferInstanceAs (Decidable (_ ∧ _))

end Box

/-- Three bytes for each place and one for each row. There is no sheet of more. -/
def maxSheetBytes : Nat := 1000000000

def fitsSheet (width height : Nat) : Bool :=
  0 < width ∧ 0 < height ∧ height * (3 * width + 1) ≤ maxSheetBytes

structure Sheet where
  width : Nat
  height : Nat
  fits : fitsSheet width height = true
  /-- From top to bottom, each from left to right. -/
  rows : List (List Rgb)
  length_rows : rows.length = height
  length_row : ∀ row ∈ rows, row.length = width

namespace Sheet

def filled (width height : Nat) (fits : fitsSheet width height = true) (c : Rgb) : Sheet where
  width := width
  height := height
  fits := fits
  rows := List.replicate height (List.replicate width c)
  length_rows := List.length_replicate
  length_row row hrow := by rw [List.eq_of_mem_replicate hrow, List.length_replicate]

def paintRow (b : Box) (c : Rgb) (y : Nat) (row : List Rgb) : List Rgb :=
  if b.HasRow y then row.mapIdx fun x old => if b.HasColumn x then c else old else row

theorem length_paintRow (b : Box) (c : Rgb) (y : Nat) (row : List Rgb) :
    (paintRow b c y row).length = row.length := by
  unfold paintRow
  split
  · exact List.length_mapIdx
  · rfl

def rectangle (b : Box) (c : Rgb) (s : Sheet) : Sheet where
  width := s.width
  height := s.height
  fits := s.fits
  rows := s.rows.mapIdx (paintRow b c)
  length_rows := List.length_mapIdx.trans s.length_rows
  length_row row hrow := by
    obtain ⟨y, hy, rfl⟩ := List.mem_mapIdx.mp hrow
    exact (length_paintRow b c y _).trans (s.length_row _ (List.getElem_mem hy))

def color? (s : Sheet) (x y : Nat) : Option Rgb := s.rows[y]?.bind fun row => row[x]?

end Sheet

end Chip8
