/-! Numbers in text: written in hexadecimal, and read as people type them, with blanks around, a
sign, digits of any script, and single underscores between digits. -/
namespace Chip8.Text

/-! Hexadecimal numerals, in upper case. -/

/-- Digits of `n`, at least `width` of them. -/
def hexDigits (width n : Nat) : List Char :=
  let ds := (Nat.toDigits 16 n).map Char.toUpper
  List.replicate (width - ds.length) '0' ++ ds

/-- Zeros fill the numeral up to `width` characters, of which a minus sign is one. -/
def hex (width : Nat) (n : Int) : String :=
  if n < 0 then String.ofList ('-' :: hexDigits (width - 1) n.natAbs)
  else String.ofList (hexDigits width n.natAbs)

/-! Blanks, and text without the blanks around it. -/

/-- Runs of blank characters, first and last. The four separators below the space count as blank,
the zero-width space does not. -/
def blankRuns : List (Nat × Nat) := [
  (0x09, 0x0D), (0x1C, 0x20), (0x85, 0x85), (0xA0, 0xA0), (0x1680, 0x1680), (0x2000, 0x200A),
  (0x2028, 0x2029), (0x202F, 0x202F), (0x205F, 0x205F), (0x3000, 0x3000)]

def isBlank (c : Char) : Bool :=
  blankRuns.any fun (lo, hi) => lo ≤ c.toNat && c.toNat ≤ hi

/-- Drops the characters that satisfy `p` from both ends. -/
def trimBoth (p : Char → Bool) (cs : List Char) : List Char :=
  ((cs.dropWhile p).reverse.dropWhile p).reverse

def strip (cs : List Char) : List Char := trimBoth isBlank cs

/-! Decimal digits. Each script keeps its ten digits in one ascending run. -/

/-- The zeros, ascending. -/
def digitZeros : List Nat := [
  0x30, 0x660, 0x6F0, 0x7C0, 0x966, 0x9E6, 0xA66, 0xAE6, 0xB66, 0xBE6, 0xC66, 0xCE6, 0xD66,
  0xDE6, 0xE50, 0xED0, 0xF20, 0x1040, 0x1090, 0x17E0, 0x1810, 0x1946, 0x19D0, 0x1A80, 0x1A90,
  0x1B50, 0x1BB0, 0x1C40, 0x1C50, 0xA620, 0xA8D0, 0xA900, 0xA9D0, 0xA9F0, 0xAA50, 0xABF0,
  0xFF10, 0x104A0, 0x10D30, 0x11066, 0x110F0, 0x11136, 0x111D0, 0x112F0, 0x11450, 0x114D0,
  0x11650, 0x116C0, 0x11730, 0x118E0, 0x11950, 0x11C50, 0x11D50, 0x11DA0, 0x16A60, 0x16AC0,
  0x16B50, 0x1D7CE, 0x1D7D8, 0x1D7E2, 0x1D7EC, 0x1D7F6, 0x1E140, 0x1E2F0, 0x1E950, 0x1FBF0]

def digitValue? (c : Char) : Option Nat :=
  (digitZeros.find? fun first => first ≤ c.toNat && c.toNat < first + 10).map (c.toNat - ·)

/-! Integers. -/

/-- All blanks but the four separators below the space. -/
def isNumeralBlank (c : Char) : Bool :=
  isBlank c && !(0x1C ≤ c.toNat && c.toNat ≤ 0x1F)

/-- Digit values, most significant first. An underscore stands between two digits only. -/
def digitsOf? : List Char → Option (List Nat)
  | [] => none
  | [c] => (digitValue? c).map ([·])
  | c :: '_' :: rest => do
    let d ← digitValue? c
    let ds ← digitsOf? rest
    return d :: ds
  | c :: rest => do
    let d ← digitValue? c
    let ds ← digitsOf? rest
    return d :: ds

/-- Longer numerals are refused; zeros in front count. -/
def maxNumeralDigits : Nat := 4300

def natural? (cs : List Char) : Option Nat := do
  let ds ← digitsOf? cs
  if maxNumeralDigits < ds.length then none
  else return ds.foldl (fun n d => 10 * n + d) 0

def integer? (s : String) : Option Int :=
  match trimBoth isNumeralBlank s.toList with
  | '+' :: ds => (natural? ds).map fun n => (n : Int)
  | '-' :: ds => (natural? ds).map fun n => -(n : Int)
  | ds => (natural? ds).map fun n => (n : Int)

end Chip8.Text
