import Chip8.Display.Draw
import Mathlib.Algebra.Ring.Parity

/-! Which pixels a sprite flips. Cells rise strictly in the order of drawing, so no cell comes
twice, and only the first one can be the one without a slot. -/
namespace Chip8

variable {bits : UInt8} {source : SpriteSource} {x y address height c : Int} {cells : List Int}
  {px : Fin 64} {py : Fin 32}

theorem mem_rowCells : c ∈ rowCells bits x y ↔
    ∃ column : Nat, column < 8 ∧ x + column < 64 ∧ spriteBit bits column = true ∧
      c = x + column + 64 * y := by
  simp only [rowCells, List.mem_filterMap, List.mem_range, Option.ite_none_right_eq_some,
    Option.some.injEq]
  constructor
  · rintro ⟨column, hc, ⟨hx, hb⟩, rfl⟩
    exact ⟨column, hc, hx, hb, rfl⟩
  · rintro ⟨column, hc, hx, hb, rfl⟩
    exact ⟨column, hc, ⟨hx, hb⟩, rfl⟩

theorem mem_spriteCells : c ∈ spriteCells source x y address height ↔
    ∃ row : Nat, row < height.toNat ∧ y + row < 32 ∧
      c ∈ rowCells (source (UInt16.ofInt (address + row))) x (y + row) := by
  simp only [spriteCells, List.mem_flatMap, List.mem_range]
  constructor
  · rintro ⟨row, hr, hc⟩
    by_cases hy : y + row < 32
    · exact ⟨row, hr, hy, by simpa [hy] using hc⟩
    · simp [hy] at hc
  · rintro ⟨row, hr, hy, hc⟩
    exact ⟨row, hr, by simpa [hy] using hc⟩

theorem rowCells_pairwise (bits : UInt8) (x y : Int) : (rowCells bits x y).Pairwise (· < ·) := by
  apply List.Pairwise.filterMap _ _ List.pairwise_lt_range
  intro a b hab c hc d hd
  simp only [Option.ite_none_right_eq_some, Option.some.injEq] at hc hd
  omega

/-- A row spans fewer than 64 cells, so the cells of a later row are larger. -/
theorem spriteCells_pairwise (source : SpriteSource) (x y address height : Int) :
    (spriteCells source x y address height).Pairwise (· < ·) := by
  unfold spriteCells
  rw [List.pairwise_flatMap]
  constructor
  · intro row _
    split
    · exact rowCells_pairwise ..
    · exact List.Pairwise.nil
  · apply List.Pairwise.imp _ List.pairwise_lt_range
    intro r s hrs c hc d hd
    split at hc
    · split at hd
      · obtain ⟨_, _, _, _, rfl⟩ := mem_rowCells.mp hc
        obtain ⟨_, _, _, _, rfl⟩ := mem_rowCells.mp hd
        omega
      · simp at hd
    · simp at hc

theorem lt_of_mem_spriteCells (h : c ∈ spriteCells source x y address height) : c < 2048 := by
  obtain ⟨row, _, hy, hc⟩ := mem_spriteCells.mp h
  obtain ⟨column, _, hx, _, rfl⟩ := mem_rowCells.mp hc
  omega

theorem nonneg_of_mem_spriteCells (hx : 0 ≤ x) (hy : 0 ≤ y)
    (h : c ∈ spriteCells source x y address height) : 0 ≤ c := by
  obtain ⟨row, _, _, hc⟩ := mem_spriteCells.mp h
  obtain ⟨column, _, _, _, rfl⟩ := mem_rowCells.mp hc
  omega

/-- Right of and below the corner of the screen every cell has its slot. -/
theorem low_of_nonneg (hx : 0 ≤ x) (hy : 0 ≤ y) :
    ∀ c ∈ spriteCells source x y address height, -2048 ≤ c := fun _ hc =>
  Int.le_trans (by decide) (nonneg_of_mem_spriteCells hx hy hc)

/-- A cell without a slot can only be the first one. -/
theorem spriteCells_of_low (h : ¬ ∀ c ∈ spriteCells source x y address height, -2048 ≤ c) :
    ∃ c cells, spriteCells source x y address height = c :: cells ∧ c < -2048 := by
  have hs := spriteCells_pairwise source x y address height
  obtain ⟨a, ha, hlt⟩ : ∃ a ∈ spriteCells source x y address height, a < -2048 := by
    simpa only [not_forall, Int.not_le, exists_prop] using h
  cases hc : spriteCells source x y address height with
  | nil => simp [hc] at ha
  | cons c cells =>
    rw [hc] at ha hs
    refine ⟨c, cells, rfl, ?_⟩
    rcases List.mem_cons.mp ha with rfl | ha
    · exact hlt
    · exact Int.lt_trans (List.rel_of_pairwise_cons hs ha) hlt

theorem isSome_slot? : (slot? c).isSome ↔ -2048 ≤ c ∧ c < 2048 := by
  unfold slot?
  split
  · simp; omega
  · split
    · simp; omega
    · simp; omega

theorem slot?_of_low (h : c < -2048) : slot? c = none := by
  rw [← Option.not_isSome_iff_eq_none, isSome_slot?]
  omega

theorem slot?_eq_some_of_nonneg {k : Fin 2048} (hc : 0 ≤ c) : slot? c = some k ↔ c = (k : Int) := by
  unfold slot?
  split
  · simp [Fin.ext_iff]; omega
  · split
    · omega
    · simp; omega

theorem decide_odd_succ (n : Nat) : decide (Odd (n + 1)) = !decide (Odd n) := by
  rw [decide_eq_decide.mpr Nat.odd_add_one, decide_not]

namespace Drawing

variable {d : Drawing}

theorem flip_pixel (d : Drawing) (j k : Fin 2048) :
    (d.flip j).pixels.get k = (d.pixels.get k ^^ decide (j = k)) := by
  change (d.pixels.set j (!d.pixels[j]))[k] = (d.pixels[k] ^^ decide (j = k))
  by_cases h : j = k
  · subst h
    simp
  · have hv : (j : Nat) ≠ k := fun he => h (Fin.ext he)
    simp [h, Vector.getElem_set_ne _ _ hv]

theorem flipCells_outside (h : ∀ c ∈ cells, (slot? c).isSome) :
    (d.flipCells cells).outside = d.outside := by
  induction cells generalizing d with
  | nil => rfl
  | cons c cells ih =>
    obtain ⟨k, hk⟩ := Option.isSome_iff_exists.mp (h c (by simp))
    simp only [flipCells, hk]
    exact ih fun c hc => h c (by simp [hc])

/-- A pixel ends up flipped if an odd number of the cells are its own. -/
theorem flipCells_pixel (h : ∀ c ∈ cells, (slot? c).isSome) (k : Fin 2048) :
    (d.flipCells cells).pixels.get k =
      (d.pixels.get k ^^ decide (Odd (cells.countP fun c => slot? c = some k))) := by
  induction cells generalizing d with
  | nil => simp [flipCells]
  | cons c cells ih =>
    obtain ⟨j, hj⟩ := Option.isSome_iff_exists.mp (h c (by simp))
    simp only [flipCells, hj]
    rw [ih fun c hc => h c (by simp [hc]), flip_pixel, List.countP_cons]
    by_cases hk : j = k
    · simp only [hj, hk, decide_true, if_true, decide_odd_succ]
      cases d.pixels.get k <;> simp
    · simp [hj, hk]

end Drawing

/-- A sprite at `(x, y)` has a set bit at the place `(px, py)` of the screen. -/
def SpriteCovers (source : SpriteSource) (x y address height : Int) (px : Fin 64)
    (py : Fin 32) : Prop :=
  (0 ≤ px - x ∧ px - x < 8) ∧ (0 ≤ py - y ∧ py - y < height) ∧
    spriteBit (source (UInt16.ofInt (address + (py - y)))) (px - x).toNat = true

instance : Decidable (SpriteCovers source x y address height px py) :=
  inferInstanceAs (Decidable (_ ∧ _))

/-- To the right of the left edge, a cell tells its row and its column. -/
theorem mem_spriteCells_iff_covers (hx : 0 ≤ x) :
    (px + 64 * py : Int) ∈ spriteCells source x y address height ↔
      SpriteCovers source x y address height px py := by
  have hpx := px.isLt
  rw [mem_spriteCells]
  constructor
  · rintro ⟨row, hr, _, hc⟩
    obtain ⟨column, hcol, hlt, hb, he⟩ := mem_rowCells.mp hc
    have hpy : (py - y : Int) = row := by omega
    have hpx : (px - x : Int) = column := by omega
    refine ⟨by omega, by omega, ?_⟩
    rw [hpx, hpy]
    exact hb
  · rintro ⟨hcol, hrow, hb⟩
    refine ⟨(py - y).toNat, by omega, by omega, mem_rowCells.mpr ?_⟩
    refine ⟨(px - x).toNat, by omega, by omega, ?_, by omega⟩
    rw [show ((py - y : Int).toNat : Int) = py - y by omega]
    exact hb

theorem exists_covers (hx : 0 ≤ x) (hy : 0 ≤ y) (h : c ∈ spriteCells source x y address height) :
    ∃ px py, SpriteCovers source x y address height px py := by
  obtain ⟨row, _, hpy, hc⟩ := mem_spriteCells.mp h
  obtain ⟨column, _, hpx, _, rfl⟩ := mem_rowCells.mp hc
  refine ⟨⟨(x + column).toNat, by omega⟩, ⟨(y + row).toNat, by omega⟩, ?_⟩
  rw [← mem_spriteCells_iff_covers hx]
  simpa only [Int.toNat_of_nonneg (show 0 ≤ x + column by omega),
    Int.toNat_of_nonneg (show 0 ≤ y + row by omega)] using h

namespace Display

variable {d : Display}

/-- The pixels under the cells are the only ones that a draw can flip. -/
theorem draw_pixel (h : ∀ c ∈ spriteCells source x y address height, -2048 ≤ c) (k : Fin 2048) :
    (d.draw source x y address height).display.pixels.get k =
      (d.pixels.get k ^^ decide (Odd ((spriteCells source x y address height).countP
        fun c => slot? c = some k))) :=
  Drawing.flipCells_pixel (fun c hc => isSome_slot?.mpr ⟨h c hc, lt_of_mem_spriteCells hc⟩) k

theorem draw_outside_eq_none (h : ∀ c ∈ spriteCells source x y address height, -2048 ≤ c) :
    (d.draw source x y address height).outside = none :=
  Drawing.flipCells_outside fun c hc => isSome_slot?.mpr ⟨h c hc, lt_of_mem_spriteCells hc⟩

/-- Before the first cell nothing was flipped. -/
theorem draw_of_low (hc : spriteCells source x y address height = c :: cells) (h : c < -2048) :
    d.draw source x y address height = ⟨d, false, some c⟩ := by
  have hnone : slot? c = none := slot?_of_low h
  simp [draw, hc, Drawing.flipCells, hnone]

theorem draw_changed (h : ∀ c ∈ spriteCells source x y address height, -2048 ≤ c) :
    (d.draw source x y address height).display.changed =
      (d.changed || !(spriteCells source x y address height).isEmpty) := by
  have hn := draw_outside_eq_none (d := d) h
  unfold draw at hn ⊢
  simp only at hn ⊢
  simp [hn]

theorem lit_eq_get {k : Fin 2048} (d : Display) (hk : (k : Nat) = px + 64 * py) :
    d.lit px py = d.pixels.get k := by
  rw [lit]
  congr
  exact hk.symm

/-- Right of and below the corner of the screen, a draw flips what the sprite covers. -/
theorem lit_draw (d : Display) (source : SpriteSource) (address height : Int) (hx : 0 ≤ x)
    (hy : 0 ≤ y) (px : Fin 64) (py : Fin 32) :
    (d.draw source x y address height).display.lit px py =
      (d.lit px py ^^ decide (SpriteCovers source x y address height px py)) := by
  have hs := spriteCells_pairwise source x y address height
  have hcells : ∀ c ∈ spriteCells source x y address height, 0 ≤ c :=
    fun c hc => nonneg_of_mem_spriteCells hx hy hc
  obtain ⟨k, hk⟩ : ∃ k : Fin 2048, (k : Nat) = px + 64 * py := ⟨⟨px + 64 * py, by omega⟩, rfl⟩
  have hcount : (spriteCells source x y address height).countP (fun c => slot? c = some k) =
      (spriteCells source x y address height).count (px + 64 * py : Int) := by
    apply List.countP_congr
    intro c hc
    simp [slot?_eq_some_of_nonneg (hcells c hc), hk]
  have hodd : Odd ((spriteCells source x y address height).count (px + 64 * py : Int)) ↔
      SpriteCovers source x y address height px py := by
    rw [← mem_spriteCells_iff_covers hx, List.Nodup.count (hs.imp Int.ne_of_lt)]
    split <;> simp_all
  rw [lit_eq_get _ hk, lit_eq_get d hk,
    draw_pixel (low_of_nonneg hx hy), hcount]
  simp only [hodd]

theorem draw_pixels_ne (hx : 0 ≤ x) (hy : 0 ≤ y)
    (h : SpriteCovers source x y address height px py) :
    (d.draw source x y address height).display.pixels ≠ d.pixels := by
  intro hp
  have hlit := d.lit_draw source address height hx hy px py
  rw [decide_eq_true h, lit, hp, lit] at hlit
  simp at hlit

end Display

end Chip8
