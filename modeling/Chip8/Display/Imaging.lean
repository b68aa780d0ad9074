import Chip8.Display.Basic

/-! Pictures of the screen: each pixel a square of one of two colours. An imaging library makes
them. -/
namespace Chip8

/-- A colour as a host names it, by any three numbers. -/
structure Color where
  red : Int
  green : Int
  blue : Int
deriving DecidableEq

def Color.white : Color := ⟨255, 255, 255⟩

def Color.black : Color := ⟨0, 0, 0⟩

/-- Its four sides belong to a box. -/
structure Box where
  left : Int
  top : Int
  right : Int
  bottom : Int

/-- What there has to be for a picture. Each of these may be refused. -/
structure Imaging (S : Type) where
  /-- A sheet of a width and a height, all in one colour. -/
  sheet : Int → Int → Color → Except ForeignError S
  /-- The box in a colour, and the rest of the sheet as it was. -/
  rectangle : Box → Color → S → Except ForeignError S
  /-- The sheet as a PNG file. -/
  png : S → Except ForeignError (List UInt8)

namespace Display

variable {S : Type}

/-- Where a picture shows a pixel. -/
def square (scale : Int) (x : Fin 64) (y : Fin 32) : Box :=
  ⟨x * scale, y * scale, (x + 1) * scale - 1, (y + 1) * scale - 1⟩

def paintPixel (d : Display) (lib : Imaging S) (scale : Int) (on : Color) (y : Fin 32)
    (s : S) (x : Fin 64) : Except ForeignError S :=
  if d.lit x y then lib.rectangle (square scale x y) on s else .ok s

def paintRow (d : Display) (lib : Imaging S) (scale : Int) (on : Color) (s : S)
    (y : Fin 32) : Except ForeignError S :=
  (List.finRange 64).foldlM (d.paintPixel lib scale on y) s

/-- The lit pixels over a sheet in `off`. -/
def painted (d : Display) (lib : Imaging S) (scale : Int) (on off : Color) :
    Except ForeignError S := do
  (List.finRange 32).foldlM (d.paintRow lib scale on) (← lib.sheet (64 * scale) (32 * scale) off)

def image (d : Display) (lib : Imaging S) (scale : Int) (on off : Color) :
    Except HostError (List UInt8) :=
  if scale < 1 then .error (.scale scale)
  else (do lib.png (← d.painted lib scale on off)).mapError .foreign

/-- The scale of a picture for which none is named. -/
def defaultScale : Int := 8

end Display

end Chip8
