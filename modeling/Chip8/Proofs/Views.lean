import Chip8.Proofs.Drawing
import Chip8.Proofs.Sheets
import Mathlib.Data.List.OfFn

/-! The views of a screen: single pixels, rows, a count, text and pictures. They show one and the
same screen. -/
namespace Chip8

namespace Display

variable {d e : Display} {on off : Char}

theorem getElem?_pixels (d : Display) (x : Fin 64) (y : Fin 32) :
    d.pixels[(x : Nat) + 64 * y]? = some (d.lit x y) :=
  Vector.getElem?_eq_getElem (by omega)

theorem getElem?_rows (d : Display) (y : Fin 32) : d.rows[(y : Nat)]? = some (d.row y) := by
  simp [rows]

theorem getElem?_row_of_rows (d : Display) (x : Fin 64) (y : Fin 32) :
    (d.rows[(y : Nat)]?.bind fun r => r[(x : Nat)]?) = some (d.lit x y) := by
  rw [getElem?_rows]
  simp [row]

theorem length_rows (d : Display) : d.rows.length = 32 := by
  rw [rows, List.length_map, List.length_finRange]

theorem length_of_mem_rows (d : Display) : ∀ r ∈ d.rows, r.length = 64 := by
  intro r hr
  obtain ⟨y, -, rfl⟩ := List.mem_map.mp hr
  rw [row, List.length_map, List.length_finRange]

/-- Each row is a slice of the pixels. -/
theorem row_eq_extract (d : Display) (y : Fin 32) :
    d.row y = d.pixels.toList.extract (64 * y) (64 * (y + 1)) := by
  apply List.ext_getElem
  · rw [row, List.length_map, List.length_finRange, List.extract_eq_take_drop, List.length_take,
      List.length_drop, Vector.length_toList]
    omega
  · intro x hx _
    simp [row, lit, Vector.get, Nat.add_comm]

theorem pixel_eq_error_iff {x y : Int} :
    d.pixel x y = .error (.pixelOutside x y) ↔ ¬ ((0 ≤ x ∧ x < 64) ∧ 0 ≤ y ∧ y < 32) := by
  unfold pixel
  split
  · rename_i hin
    exact ⟨nofun, fun hout => absurd hin hout⟩
  · rename_i hout
    exact ⟨fun _ => hout, fun _ => rfl⟩

/-! Text -/

theorem text_eq_intercalate (d : Display) (on off : String) :
    d.text on off = "\n".intercalate (List.ofFn fun y : Fin 32 =>
      String.join (List.ofFn fun x : Fin 64 => if d.lit x y then on else off)) := by
  have hline : ∀ y : Fin 32, (d.row y).map (fun b => if b then on else off) =
      List.ofFn fun x : Fin 64 => if d.lit x y then on else off := by
    intro y
    rw [row, List.map_map, List.ofFn_eq_map]
    rfl
  rw [text, rows, List.map_map, List.ofFn_eq_map]
  simp only [Function.comp_def, hline]

theorem toList_text (d : Display) (on off : Char) :
    (d.text (String.singleton on) (String.singleton off)).toList =
      ['\n'].intercalate (d.rows.map (List.map fun b => if b then on else off)) := by
  have hcell : ∀ b : Bool, (if b then String.singleton on else String.singleton off).toList =
      [if b then on else off] := by
    intro b
    cases b with
    | true | false => exact String.toList_singleton _
  have hline : ∀ r : List Bool, (String.join (r.map fun b =>
      if b then String.singleton on else String.singleton off)).toList =
        r.map fun b => if b then on else off := by
    intro r
    rw [String.toList_join, List.flatMap_map, List.map_eq_flatMap]
    simp only [hcell]
  have hnewline : "\n".toList = ['\n'] := rfl
  rw [text, String.toList_intercalate, List.map_map, hnewline]
  exact congrArg (List.intercalate ['\n']) (List.map_congr_left fun r _ => hline r)

theorem splitOn_text (d : Display) (hon : on ≠ '\n') (hoff : off ≠ '\n') :
    (d.text (String.singleton on) (String.singleton off)).toList.splitOn '\n' =
      d.rows.map (List.map fun b => if b then on else off) := by
  rw [toList_text, List.splitOn_intercalate]
  · intro line hline hmem
    obtain ⟨r, -, rfl⟩ := List.mem_map.mp hline
    obtain ⟨b, -, hb⟩ := List.mem_map.mp hmem
    cases b with
    | true => exact hon hb
    | false => exact hoff hb
  · simp [rows]

/-- The lines of a text, and in each line the places of `on`, are the rows again. -/
theorem rows_of_text (d : Display) (hne : on ≠ off) (hon : on ≠ '\n') (hoff : off ≠ '\n') :
    ((d.text (String.singleton on) (String.singleton off)).toList.splitOn '\n').map
      (List.map fun c => c == on) = d.rows := by
  have hback : (fun b : Bool => (if b then on else off) == on) = id := by
    funext b
    cases b with
    | true => exact beq_self_eq_true on
    | false => exact beq_false_of_ne hne.symm
  rw [splitOn_text d hon hoff, List.map_map]
  simp [Function.comp_def, hback]

theorem pixels_eq_of_rows (h : d.rows = e.rows) : d.pixels = e.pixels := by
  apply pixels_eq_of_lit
  intro p
  have hp := d.getElem?_row_of_rows p.1 p.2
  rw [h, getElem?_row_of_rows] at hp
  exact (Option.some.inj hp).symm

/-- Whichever way a screen is looked at, the same pixels are lit: one at a time, by number, by rows,
which are slices of the pixels, and in text, which gives them back unless its two characters are the
same or one of them ends a line. A pixel is refused only off the screen. A picture has a square in
one of two colours for each pixel, as large as its scale, which must not be below one. So it is with
any imaging library that can be relied on: there is no other picture, and if there is none then the
library has refused a call that it takes. -/
theorem views_show_one_screen (d : Display) :
    (∀ (x : Fin 64) (y : Fin 32), d.pixel x y = .ok (d.lit x y) ∧
      d.pixels[(x : Nat) + 64 * y]? = some (d.lit x y) ∧
      (d.rows[(y : Nat)]?.bind fun r => r[(x : Nat)]?) = some (d.lit x y)) ∧
    ((d.rows.length = 32 ∧ ∀ r ∈ d.rows, r.length = 64) ∧
      ∀ y : Fin 32, d.rows[(y : Nat)]? = some (d.pixels.toList.extract (64 * y) (64 * (y + 1)))) ∧
    d.litCount = {p : Spot | d.lit p.1 p.2 = true}.ncard ∧
    (∀ on off : String, d.text on off = "\n".intercalate (List.ofFn fun y : Fin 32 =>
      String.join (List.ofFn fun x : Fin 64 => if d.lit x y then on else off))) ∧
    (∀ on off : Char, on ≠ off → on ≠ '\n' → off ≠ '\n' → ∀ e : Display,
      e.text (String.singleton on) (String.singleton off) =
        d.text (String.singleton on) (String.singleton off) → e.pixels = d.pixels) ∧
    (∀ x y : Int, d.pixel x y = .error (.pixelOutside x y) ↔
      ¬ ((0 ≤ x ∧ x < 64) ∧ 0 ≤ y ∧ y < 32)) ∧
    (∀ {S : Type} (lib : Imaging S) scale on off, scale < 1 →
      d.image lib scale on off = .error (.scale scale)) ∧
    ∀ {S : Type} (lib : Imaging S) (v : Viewer S), lib.Reliable v → ∀ scale on off, 1 ≤ scale →
      ((∀ e, ¬ lib.Refuses v (64 * scale) (32 * scale) on off e) →
        ∃ file, d.image lib scale on off = .ok file ∧
          v.Shows file d scale (v.ink on) (v.ink off)) ∧
      ((∃ file, d.image lib scale on off = .ok file ∧
          v.Shows file d scale (v.ink on) (v.ink off)) ∨
        ∃ e, lib.Refuses v (64 * scale) (32 * scale) on off e ∧
          d.image lib scale on off = .error (.foreign e)) := by
  refine ⟨fun x y => ⟨d.pixel_eq_ok x y, d.getElem?_pixels x y, d.getElem?_row_of_rows x y⟩,
    ⟨⟨d.length_rows, d.length_of_mem_rows⟩, fun y => ?_⟩, d.litCount_eq_ncard,
    d.text_eq_intercalate, fun on off hne hon hoff e htext => ?_, fun x y => pixel_eq_error_iff,
    fun lib scale on off h => d.image_of_small h lib on off, fun lib v hlib scale on off h =>
    ⟨fun hserved => d.exists_image hlib h hserved, d.image_shows_or_refused hlib h on off⟩⟩
  · rw [getElem?_rows, row_eq_extract]
  · apply pixels_eq_of_rows
    rw [← e.rows_of_text hne hon hoff, htext, d.rows_of_text hne hon hoff]

/-- One pixel is lit, in the lower right corner. In a picture with squares of three by three its
square ends in the corner too, and the square to the left of it is dark up to its last column. -/
theorem corner_fills_its_square :
    let d : Display := ⟨dark.set 2047 true, true⟩
    let lib := Sheet.imaging
    let v := Sheet.viewer
    (('#' ≠ '.' ∧ '#' ≠ '\n' ∧ '.' ≠ '\n') ∧
      ∀ e : Display, e.text "#" "." = d.text "#" "." → e.pixels = d.pixels) ∧
    ((0 : Int) < 1 ∧ d.image lib 0 .white .black = .error (.scale 0)) ∧
    (lib.Reliable v ∧ (1 : Int) ≤ 3 ∧
      ∀ e, ¬ lib.Refuses v (64 * 3) (32 * 3) .white .black e) ∧
    ∃ file s, d.image lib 3 .white .black = .ok file ∧ Png.decode? file = some s ∧
      (s.width = 192 ∧ s.height = 96) ∧ v.color s 191 95 = ⟨255, 255, 255⟩ ∧
      v.color s 189 93 = ⟨255, 255, 255⟩ ∧ v.color s 188 95 = ⟨0, 0, 0⟩ := by
  intro d lib v
  have hlib : lib.Reliable v := Sheet.imaging_reliable
  have hfits : fitsSheet 192 96 = true := by decide
  have hserved : ∀ e, ¬ lib.Refuses v (64 * 3) (32 * 3) .white .black e :=
    Sheet.imaging_serves hfits (by decide) (by decide)
  obtain ⟨-, -, -, -, htext, -, hsmall, himage⟩ := views_show_one_screen d
  obtain ⟨hdone, -⟩ := himage lib v hlib 3 .white .black (by decide)
  obtain ⟨file, hfile, s, hread, ⟨hwidth, hheight⟩, hcolor⟩ := hdone hserved
  have hsize : s.width = 192 ∧ s.height = 96 := ⟨Int.ofNat_inj.mp hwidth, Int.ofNat_inj.mp hheight⟩
  have hplace : ∀ (x y : Nat) lit, x < 192 ∧ y < 96 → d.pixel (x / 3) (y / 3) = .ok lit →
      v.color s x y = if lit then v.ink .white else v.ink .black := by
    intro x y lit hxy hlit
    have hholds : v.Holds s x y := ⟨hxy.1.trans_eq hsize.1.symm, hxy.2.trans_eq hsize.2.symm⟩
    obtain ⟨lit', hpixel, hc⟩ := hcolor x y hholds
    cases hlit.symm.trans hpixel
    exact hc
  refine ⟨⟨by decide, htext '#' '.' (by decide) (by decide) (by decide)⟩,
    ⟨by decide, hsmall lib 0 .white .black (by decide)⟩, ⟨hlib, by decide, hserved⟩, file, s, hfile,
    hread, hsize, ?_, ?_, ?_⟩
  · exact hplace 191 95 true (by decide) (by decide +kernel)
  · exact hplace 189 93 true (by decide) (by decide +kernel)
  · exact hplace 188 95 false (by decide) (by decide +kernel)

end Display

end Chip8
