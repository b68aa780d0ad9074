import Chip8.Display.Sheet

/-! Sheets as PNG files: true colour, eight bits a channel, stored without compression. -/
namespace Chip8

namespace Png

def bigEndian (n : Nat) : List UInt8 :=
  [UInt8.ofNat (n >>> 24), UInt8.ofNat (n >>> 16), UInt8.ofNat (n >>> 8), UInt8.ofNat n]

def littleEndian (n : Nat) : List UInt8 := [UInt8.ofNat n, UInt8.ofNat (n >>> 8)]

def crcBit (c : UInt32) (_round : Nat) : UInt32 :=
  if c &&& 1 = 1 then (c >>> 1) ^^^ 0xEDB88320 else c >>> 1

def crcByte (c : UInt32) (b : UInt8) : UInt32 := (List.range 8).foldl crcBit (c ^^^ b.toUInt32)

def crc (bs : List UInt8) : Nat := (bs.foldl crcByte 0xFFFFFFFF ^^^ 0xFFFFFFFF).toNat

def adlerByte (sums : Nat × Nat) (b : UInt8) : Nat × Nat :=
  let low := (sums.1 + b.toNat) % 65521
  (low, (sums.2 + low) % 65521)

def adler (bs : List UInt8) : Nat :=
  let sums := bs.foldl adlerByte (1, 0)
  sums.2 * 65536 + sums.1

def tag (kind : String) : List UInt8 := kind.toList.map fun c => UInt8.ofNat c.toNat

def chunk (kind : String) (data : List UInt8) : List UInt8 :=
  bigEndian data.length ++ tag kind ++ data ++ bigEndian (crc (tag kind ++ data))

/-- A block tells whether it is the last, its length, and the complement of its length. -/
def storedBlock (last : Bool) (data : List UInt8) : List UInt8 :=
  (if last then 1 else 0) :: littleEndian data.length ++ littleEndian (65535 - data.length) ++ data

/-- At most `budget` blocks and the last, which a data length of `budget` never exceeds. -/
def storedBlocks : Nat → List UInt8 → List UInt8
  | 0, data => storedBlock true data
  | budget + 1, data =>
    if data.length ≤ 65535 then storedBlock true data
    else storedBlock false (data.take 65535) ++ storedBlocks budget (data.drop 65535)

def zlibMark : List UInt8 := [0x78, 0x01]

def zlib (data : List UInt8) : List UInt8 :=
  zlibMark ++ storedBlocks data.length data ++ bigEndian (adler data)

def colorBytes (c : Rgb) : List UInt8 := [c.red, c.green, c.blue]

/-- A row starts with the number of its filter, which is none. -/
def scanline (row : List Rgb) : List UInt8 := 0 :: row.flatMap colorBytes

def signature : List UInt8 := [0x89, 0x50, 0x4E, 0x47, 0x0D, 0x0A, 0x1A, 0x0A]

/-- Eight bits a channel, true colour, and nothing out of the ordinary. -/
def format : List UInt8 := [8, 2, 0, 0, 0]

def encode (s : Sheet) : List UInt8 :=
  signature ++
  chunk "IHDR" (bigEndian s.width ++ bigEndian s.height ++ format) ++
  chunk "IDAT" (zlib (s.rows.flatMap scanline)) ++
  chunk "IEND" []

end Png

/-- An imaging library of one's own. It makes no sheet that could not be saved, and knows no colours
but those that a sheet can show. -/
def Sheet.imaging : Imaging Sheet where
  sheet width height c :=
    match c.rgb? with
    | none => .error ⟨"Color", "not a colour"⟩
    | some c =>
      if h : (0 ≤ width ∧ 0 ≤ height) ∧ fitsSheet width.toNat height.toNat = true then
        .ok (filled width.toNat height.toNat h.2 c)
      else .error ⟨"Size", "not the size of a sheet"⟩
  rectangle b c s :=
    match c.rgb? with
    | none => .error ⟨"Color", "not a colour"⟩
    | some c => .ok (s.rectangle b c)
  png s := .ok (Png.encode s)

end Chip8
