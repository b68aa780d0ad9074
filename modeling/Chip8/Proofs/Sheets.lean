import Chip8.Proofs.Painting
import Chip8.Proofs.PngFiles

/-! The imaging library of one's own. It can be relied on, and of what fits on its sheets it refuses
nothing. -/
namespace Chip8

variable {width height x y : Nat} {c : Rgb} {on off : Color}

theorem channel?_toNat (b : UInt8) : channel? b.toNat = some b := by
  have hb := b.toNat_lt
  rw [channel?, if_pos (by omega), Int.toNat_natCast, UInt8.ofNat_toNat]

theorem Rgb.rgb?_color (c : Rgb) : c.color.rgb? = some c := by
  simp only [Color.rgb?, Rgb.color, channel?_toNat]
  rfl

namespace Sheet

/-- Off a sheet, and for what is no colour, black will do. -/
def viewer : Viewer Sheet where
  size s := (s.width, s.height)
  color s x y := (s.color? x y).getD ⟨0, 0, 0⟩
  ink c := c.rgb?.getD ⟨0, 0, 0⟩
  read? := Png.decode?

theorem exists_color? {s : Sheet} (h : viewer.Holds s x y) : ∃ c, s.color? x y = some c := by
  have hrow : y < s.rows.length := by
    rw [s.length_rows]
    exact h.2
  have hcolumn : x < s.rows[y].length := by
    rw [s.length_row _ (List.getElem_mem hrow)]
    exact h.1
  refine ⟨s.rows[y][x], ?_⟩
  rw [color?, List.getElem?_eq_getElem hrow, Option.bind_some, List.getElem?_eq_getElem hcolumn]

theorem color?_filled (fits : fitsSheet width height = true) (c : Rgb) (hx : x < width)
    (hy : y < height) : (filled width height fits c).color? x y = some c := by
  rw [color?, filled, List.getElem?_replicate_of_lt hy, Option.bind_some,
    List.getElem?_replicate_of_lt hx]

theorem getElem?_paintRow (b : Box) (c : Rgb) (y : Nat) (row : List Rgb) (x : Nat) :
    (paintRow b c y row)[x]? =
      row[x]?.map fun old => if b.HasColumn x ∧ b.HasRow y then c else old := by
  unfold paintRow
  split
  · rename_i hrow
    simp only [List.getElem?_mapIdx, hrow, and_true]
  · rename_i hrow
    simp only [hrow, and_false, if_false, Option.map_id']

theorem color?_rectangle (b : Box) (c : Rgb) (s : Sheet) (x y : Nat) :
    (s.rectangle b c).color? x y =
      (s.color? x y).map fun old => if b.HasColumn x ∧ b.HasRow y then c else old := by
  rw [color?, rectangle, List.getElem?_mapIdx, color?]
  cases s.rows[y]? with
  | none => rfl
  | some row => exact getElem?_paintRow b c y row x

theorem paints_rectangle (b : Box) (c : Rgb) :
    viewer.Paints b.Has c fun s => .ok (s.rectangle b c) where
  size h := by cases h; rfl
  inside {s t} h x y hxy hin := by
    cases h
    obtain ⟨old, hold⟩ := exists_color? hxy
    have hplace : b.HasColumn x ∧ b.HasRow y := hin
    simp only [viewer, color?_rectangle, hold, if_pos hplace]
    rfl
  outside {s t} h x y hxy hout := by
    cases h
    obtain ⟨old, hold⟩ := exists_color? hxy
    have hplace : ¬ (b.HasColumn x ∧ b.HasRow y) := hout
    simp only [viewer, color?_rectangle, hold, if_neg hplace]
    rfl

/-- What it is asked to paint in no colour it refuses. -/
theorem rectangle_cases (b : Box) (c : Color) :
    (c.rgb? = none ∧ ∃ e, imaging.rectangle b c = fun _ => .error e) ∨
      ∃ a, c.rgb? = some a ∧ imaging.rectangle b c = fun s => .ok (s.rectangle b a) := by
  cases hc : c.rgb? with
  | none => exact .inl ⟨rfl, ⟨"Color", "not a colour"⟩, by simp only [imaging, hc]⟩
  | some a => exact .inr ⟨a, rfl, by simp only [imaging, hc]⟩

theorem imaging_sheet (fits : fitsSheet width height = true) (hc : off.rgb? = some c) :
    imaging.sheet width height off = .ok (filled width height fits c) := by
  have hfits : (0 ≤ (width : Int) ∧ 0 ≤ (height : Int)) ∧
      fitsSheet (width : Int).toNat (height : Int).toNat = true := ⟨by omega, fits⟩
  simp only [imaging, hc, dif_pos hfits]
  rfl

theorem imaging_reliable : imaging.Reliable viewer where
  ink c := by simp only [viewer, c.rgb?_color, Option.getD_some]
  sheet {width height off s} h := by
    simp only [imaging] at h
    cases hc : off.rgb? with
    | none =>
      rw [hc] at h
      cases h
    | some c =>
      simp only [hc] at h
      split at h
      · rename_i hfits
        cases h
        refine ⟨⟨Int.toNat_of_nonneg hfits.1.1, Int.toNat_of_nonneg hfits.1.2⟩, fun x y hxy => ?_⟩
        simp only [viewer, color?_filled hfits.2 c hxy.1 hxy.2, hc]
      · cases h
  rectangle {b} _ c := by
    obtain ⟨-, e, he⟩ | ⟨a, ha, hrectangle⟩ := rectangle_cases b c
    · rw [he]
      exact ⟨nofun, nofun, nofun⟩
    · rw [hrectangle]
      simp only [viewer, ha]
      exact paints_rectangle b a
  png {s file} h := by
    cases h
    exact ⟨s, Png.decode?_encode s, ⟨rfl, fun _ _ _ => rfl⟩⟩

theorem imaging_serves (fits : fitsSheet width height = true) (hon : on.rgb?.isSome)
    (hoff : off.rgb?.isSome) (e : ForeignError) :
    ¬ imaging.Refuses viewer width height on off e := by
  intro hrefused
  cases hrefused with
  | sheet h =>
    obtain ⟨c, hc⟩ := Option.isSome_iff_exists.mp hoff
    cases (imaging_sheet fits hc).symm.trans h
  | rectangle _ _ h =>
    obtain ⟨hnone, -⟩ | ⟨a, -, hrectangle⟩ := rectangle_cases _ on
    · simp [hnone] at hon
    · rw [hrectangle] at h
      cases h
  | png _ h => cases h

end Sheet

end Chip8
