import Chip8.Display.Png
import Mathlib.Algebra.BigOperators.Group.List.Basic
import Mathlib.Algebra.Group.Action.Defs

/-! A PNG file holds its sheet: a reader for such files, and what it reads from the file of a sheet.
Each part of the reader gives back what is left behind the bytes that it has read. -/
namespace Chip8.Png

variable {α : Type} {bs data front rest : List UInt8} {n budget : Nat}

/-- The bytes in front and those behind, if there are that many. -/
def take? (n : Nat) (bs : List UInt8) : Option (List UInt8 × List UInt8) :=
  if n ≤ bs.length then some (bs.take n, bs.drop n) else none

/-- The number that bytes spell, the highest first. -/
def number (bs : List UInt8) : Nat := bs.foldl (fun n b => 256 * n + b.toNat) 0

/-- The data of a chunk of this kind, if its checksum is right. -/
def chunk? (kind : String) (bs : List UInt8) : Option (List UInt8 × List UInt8) := do
  let (size, bs) ← take? 4 bs
  let bs ← bs.dropPrefix? (tag kind)
  let (data, bs) ← take? (number size) bs
  let bs ← bs.dropPrefix? (bigEndian (crc (tag kind ++ data)))
  return (data, bs)

/-- The data of the stored blocks up to the last, which are `budget` blocks at most. -/
def stored? : Nat → List UInt8 → Option (List UInt8 × List UInt8)
  | 0, _ => none
  | budget + 1, bs => do
    let (last, bs) ← take? 1 bs
    let (size, bs) ← take? 2 bs
    let bs ← bs.dropPrefix? (littleEndian (65535 - number size.reverse))
    let (data, bs) ← take? (number size.reverse) bs
    if last = [1] then return (data, bs)
    let (more, bs) ← stored? budget bs
    return (data ++ more, bs)

def zlib? (bs : List UInt8) : Option (List UInt8) := do
  let bs ← bs.dropPrefix? zlibMark
  let (data, bs) ← stored? bs.length bs
  if bs = bigEndian (adler data) then some data else none

/-- So many items, one behind the other. -/
def many? (item : List UInt8 → Option (α × List UInt8)) :
    Nat → List UInt8 → Option (List α × List UInt8)
  | 0, bs => some ([], bs)
  | n + 1, bs => do
    let (first, bs) ← item bs
    let (others, bs) ← many? item n bs
    return (first :: others, bs)

def color? : List UInt8 → Option (Rgb × List UInt8)
  | red :: green :: blue :: bs => some (⟨red, green, blue⟩, bs)
  | _ => none

def scanline? (width : Nat) (bs : List UInt8) : Option (List Rgb × List UInt8) := do
  many? color? width (← bs.dropPrefix? [0])

def sheet? (width height : Nat) (rows : List (List Rgb)) : Option Sheet :=
  if h : fitsSheet width height = true ∧ rows.length = height ∧
      ∀ row ∈ rows, row.length = width then
    some ⟨width, height, h.1, rows, h.2.1, h.2.2⟩
  else none

/-- The sheet that a file holds. -/
def decode? (file : List UInt8) : Option Sheet := do
  let bs ← file.dropPrefix? signature
  let (header, bs) ← chunk? "IHDR" bs
  let (width, header) ← take? 4 header
  let (height, header) ← take? 4 header
  let (packed, bs) ← chunk? "IDAT" bs
  let (rows, rest) ← many? (scanline? (number width)) (number height) (← zlib? packed)
  if header = format ∧ bs = chunk "IEND" [] ∧ rest = [] then
    sheet? (number width) (number height) rows
  else none

/-! The parts. -/

theorem take?_append (h : front.length = n) : take? n (front ++ rest) = some (front, rest) := by
  rw [take?, if_pos (by rw [List.length_append]; omega), List.take_left' h, List.drop_left' h]

theorem dropPrefix?_append (front rest : List UInt8) :
    (front ++ rest).dropPrefix? front = some rest :=
  List.dropPrefix?_append_of_beq rest (beq_self_eq_true front)

theorem length_bigEndian (n : Nat) : (bigEndian n).length = 4 := rfl

theorem length_littleEndian (n : Nat) : (littleEndian n).length = 2 := rfl

theorem number_bigEndian (h : n < 0x100000000) : number (bigEndian n) = n := by
  simp only [number, bigEndian, List.foldl_cons, List.foldl_nil, UInt8.toNat_ofNat',
    Nat.shiftRight_eq_div_pow]
  omega

theorem number_littleEndian (h : n < 0x10000) : number (littleEndian n).reverse = n := by
  simp only [number, littleEndian, List.reverse_cons, List.reverse_nil, List.nil_append,
    List.cons_append, List.foldl_cons, List.foldl_nil, UInt8.toNat_ofNat',
    Nat.shiftRight_eq_div_pow]
  omega

theorem chunk?_append (kind : String) (h : data.length < 0x100000000) (rest : List UInt8) :
    chunk? kind (chunk kind data ++ rest) = some (data, rest) := by
  simp only [chunk?, chunk, List.append_assoc, take?_append (length_bigEndian _),
    Option.bind_eq_bind, Option.bind_some, dropPrefix?_append, number_bigEndian h,
    take?_append rfl]
  rfl

/-- A block is read up to its end, and whether others are to follow. -/
theorem stored?_storedBlock (last : Bool) (h : data.length ≤ 65535) (budget : Nat)
    (rest : List UInt8) :
    stored? (budget + 1) (storedBlock last data ++ rest) =
      if last then some (data, rest)
      else (stored? budget rest).map fun r => (data ++ r.1, r.2) := by
  have hmark : take? 1 (storedBlock last data ++ rest) = some ([if last then 1 else 0],
      littleEndian data.length ++ (littleEndian (65535 - data.length) ++ (data ++ rest))) := by
    have hlength : [if last then (1 : UInt8) else 0].length = 1 := rfl
    simp only [storedBlock, List.cons_append, List.append_assoc]
    exact take?_append hlength
  simp only [stored?, hmark, Option.bind_eq_bind, Option.bind_some,
    take?_append (length_littleEndian _), number_littleEndian (show data.length < 0x10000 by omega),
    dropPrefix?_append, take?_append rfl]
  cases last with
  | true => rfl
  | false =>
    cases stored? budget rest with
    | none => rfl
    | some r => rfl

theorem stored?_storedBlocks (h : data.length ≤ n) (hn : n < budget) (rest : List UInt8) :
    stored? budget (storedBlocks n data ++ rest) = some (data, rest) := by
  induction n generalizing data budget with
  | zero =>
    obtain ⟨budget, rfl⟩ := Nat.exists_eq_succ_of_ne_zero (show budget ≠ 0 by omega)
    exact stored?_storedBlock true (by omega) budget rest
  | succ n ih =>
    obtain ⟨budget, rfl⟩ := Nat.exists_eq_succ_of_ne_zero (show budget ≠ 0 by omega)
    rw [storedBlocks]
    split
    · rename_i hsmall
      exact stored?_storedBlock true hsmall budget rest
    · rename_i hlarge
      have hfirst : (data.take 65535).length ≤ 65535 := by
        rw [List.length_take]
        omega
      have hothers : (data.drop 65535).length ≤ n := by
        rw [List.length_drop]
        omega
      rw [List.append_assoc, stored?_storedBlock false hfirst, ih hothers (by omega)]
      simp only [Bool.false_eq_true, if_false, Option.map_some, List.take_append_drop]

/-- The blocks take more room than their data, and no more than twice the room. -/
theorem length_storedBlocks (h : data.length ≤ n) :
    data.length < (storedBlocks n data).length ∧
      (storedBlocks n data).length ≤ 2 * data.length + 5 := by
  have hblock (last : Bool) (data : List UInt8) :
      (storedBlock last data).length = data.length + 5 := by
    simp only [storedBlock, List.length_append, List.length_cons, length_littleEndian]
    omega
  induction n generalizing data with
  | zero =>
    rw [storedBlocks, hblock]
    omega
  | succ n ih =>
    rw [storedBlocks]
    split
    · rw [hblock]
      omega
    · have hshorter : (data.drop 65535).length ≤ n := by
        rw [List.length_drop]
        omega
      have hothers := ih hshorter
      rw [List.length_append, hblock, List.length_take]
      rw [List.length_drop] at hothers
      omega

theorem length_zlib_le (data : List UInt8) : (zlib data).length ≤ 2 * data.length + 11 := by
  have hblocks := length_storedBlocks (Nat.le_refl data.length)
  simp only [zlib, zlibMark, List.length_append, List.length_cons, List.length_nil,
    length_bigEndian]
  omega

theorem zlib?_zlib (data : List UInt8) : zlib? (zlib data) = some data := by
  have hbudget : data.length <
      (storedBlocks data.length data ++ bigEndian (adler data)).length := by
    have hblocks := length_storedBlocks (Nat.le_refl data.length)
    rw [List.length_append]
    omega
  simp only [zlib?, zlib, List.append_assoc, dropPrefix?_append, Option.bind_eq_bind,
    Option.bind_some, stored?_storedBlocks (Nat.le_refl _) hbudget, if_pos]

theorem many?_flatMap {item : List UInt8 → Option (α × List UInt8)} {encode : α → List UInt8}
    {as : List α} (h : ∀ a ∈ as, ∀ rest, item (encode a ++ rest) = some (a, rest))
    (rest : List UInt8) : many? item as.length (as.flatMap encode ++ rest) = some (as, rest) := by
  induction as with
  | nil => rfl
  | cons a as ih =>
    obtain ⟨hfirst, hothers⟩ := List.forall_mem_cons.mp h
    simp only [List.length_cons, many?, List.flatMap_cons, List.append_assoc, hfirst,
      Option.bind_eq_bind, Option.bind_some, ih hothers]
    rfl

theorem scanline?_scanline (row : List Rgb) (rest : List UInt8) :
    scanline? row.length (scanline row ++ rest) = some (row, rest) := by
  have hfilter : (scanline row ++ rest).dropPrefix? [0] = some (row.flatMap colorBytes ++ rest) :=
    dropPrefix?_append [0] _
  rw [scanline?, hfilter]
  exact many?_flatMap (fun c _ rest => rfl) rest

theorem length_scanlines (s : Sheet) :
    (s.rows.flatMap scanline).length = s.height * (3 * s.width + 1) := by
  have hline : ∀ row ∈ s.rows, (scanline row).length = 3 * s.width + 1 := by
    intro row hrow
    have hcolors : ∀ c ∈ row, (colorBytes c).length = 3 := fun _ _ => rfl
    rw [scanline, List.length_cons, List.length_flatMap, List.map_congr_left hcolors,
      List.map_const', List.sum_replicate, s.length_row row hrow, smul_eq_mul, Nat.mul_comm]
  rw [List.length_flatMap, List.map_congr_left hline, List.map_const', List.sum_replicate,
    s.length_rows, smul_eq_mul]

/-- The numbers of a sheet fit the fields of four bytes that they are written to. -/
theorem sizes_lt (s : Sheet) : s.width < 0x100000000 ∧ s.height < 0x100000000 ∧
    (zlib (s.rows.flatMap scanline)).length < 0x100000000 := by
  obtain ⟨hwidth, hheight, hbytes⟩ := of_decide_eq_true s.fits
  have hmax : maxSheetBytes = 1000000000 := rfl
  have hrow := Nat.le_mul_of_pos_left (3 * s.width + 1) hheight
  have hrows := Nat.le_mul_of_pos_right s.height (show 0 < 3 * s.width + 1 by omega)
  have hzlib := length_zlib_le (s.rows.flatMap scanline)
  rw [length_scanlines] at hzlib
  omega

theorem many?_scanlines (s : Sheet) :
    many? (scanline? s.width) s.height (s.rows.flatMap scanline) = some (s.rows, []) := by
  have hline : ∀ row ∈ s.rows, ∀ rest,
      scanline? s.width (scanline row ++ rest) = some (row, rest) := by
    intro row hrow rest
    rw [← s.length_row row hrow]
    exact scanline?_scanline row rest
  have hlines := many?_flatMap hline []
  rwa [List.append_nil, s.length_rows] at hlines

/-- Nothing of a sheet is lost in its file. -/
theorem decode?_encode (s : Sheet) : decode? (encode s) = some s := by
  obtain ⟨hwidth, hheight, hpacked⟩ := sizes_lt s
  have hheader : (bigEndian s.width ++ (bigEndian s.height ++ format)).length < 0x100000000 :=
    show 13 < 0x100000000 by decide
  have hsheet : sheet? s.width s.height s.rows = some s :=
    dif_pos ⟨s.fits, s.length_rows, s.length_row⟩
  simp only [decode?, encode, List.append_assoc, dropPrefix?_append, Option.bind_eq_bind,
    Option.bind_some, chunk?_append "IHDR" hheader,
    take?_append (length_bigEndian _), chunk?_append "IDAT" hpacked, zlib?_zlib,
    number_bigEndian hwidth, number_bigEndian hheight, many?_scanlines, hsheet]
  rfl

end Chip8.Png
