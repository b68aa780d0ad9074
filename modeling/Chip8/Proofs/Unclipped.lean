import Chip8.Proofs.Bare.Devices
import Chip8.Proofs.Drawing
import Mathlib.Logic.Function.Iterate

/-! Draws left of the screen or above it, where nothing is cut off. A bit there stands for a pixel
counted from the end of the screen, or for none. -/
namespace Chip8

variable {source : SpriteSource} {x y address height c : Int} {k : Fin 2048}

/-- The pixel number under a bit of a sprite at `(x, y)`. -/
def bitCell {rows : Nat} (x y : Int) (b : Fin rows × Fin 8) : Int := x + b.2 + 64 * (y + b.1)

theorem bitCell_injective {rows : Nat} (x y : Int) :
    Function.Injective fun b : Fin rows × Fin 8 => bitCell x y b := by
  rintro ⟨row, column⟩ ⟨row', column'⟩ h
  simp only [bitCell] at h
  rw [Prod.mk.injEq, Fin.ext_iff, Fin.ext_iff]
  omega

theorem mem_spriteCells_iff_bit : c ∈ spriteCells source x y address height ↔
    ∃ b ∈ spriteBits source x y address height, bitCell x y b = c := by
  simp only [mem_spriteCells, mem_rowCells, spriteBits, bitCell, Finset.mem_filter,
    Finset.mem_univ, true_and, Prod.exists]
  constructor
  · rintro ⟨row, hr, hy, column, hc, hx, hb, rfl⟩
    exact ⟨⟨row, hr⟩, ⟨column, hc⟩, ⟨⟨hx, hy⟩, hb⟩, rfl⟩
  · rintro ⟨row, column, ⟨⟨hx, hy⟩, hb⟩, rfl⟩
    exact ⟨row, row.isLt, hy, column, column.isLt, hx, hb, rfl⟩

theorem forall_spriteCells_iff {p : Int → Prop} :
    (∀ c ∈ spriteCells source x y address height, p c) ↔
      ∀ b ∈ spriteBits source x y address height, p (bitCell x y b) := by
  simp only [mem_spriteCells_iff_bit]
  constructor
  · intro h b hb
    exact h _ ⟨b, hb, rfl⟩
  · rintro h c ⟨b, hb, rfl⟩
    exact h b hb

theorem exists_low_bit_iff : (∃ b ∈ spriteBits source x y address height, bitCell x y b < -2048) ↔
    ¬ ∀ c ∈ spriteCells source x y address height, -2048 ≤ c := by
  rw [forall_spriteCells_iff]
  simp only [not_forall, Int.not_le, exists_prop]

/-- No two bits have the same cell, so cells can be counted as bits. -/
theorem countP_spriteCells (p : Int → Prop) [DecidablePred p] :
    (spriteCells source x y address height).countP p =
      ((spriteBits source x y address height).filter fun b => p (bitCell x y b)).card := by
  have hnodup : (spriteCells source x y address height).Nodup :=
    (spriteCells_pairwise source x y address height).imp Int.ne_of_lt
  have hcells : ((spriteCells source x y address height).filter fun c => p c).toFinset =
      ((spriteBits source x y address height).filter fun b => p (bitCell x y b)).image
        (bitCell x y) := by
    ext c
    simp only [List.mem_toFinset, List.mem_filter, decide_eq_true_eq, mem_spriteCells_iff_bit,
      Finset.mem_image, Finset.mem_filter]
    constructor
    · rintro ⟨⟨b, hb, rfl⟩, hp⟩
      exact ⟨b, ⟨hb, hp⟩, rfl⟩
    · rintro ⟨b, ⟨hb, hp⟩, rfl⟩
      exact ⟨⟨b, hb, rfl⟩, hp⟩
  rw [List.countP_eq_length_filter, ← List.toFinset_card_of_nodup (hnodup.filter _), hcells,
    Finset.card_image_of_injective _ (bitCell_injective x y)]

theorem slot?_eq_some_iff (hc : -2048 ≤ c ∧ c < 2048) : slot? c = some k ↔ c % 2048 = k := by
  unfold slot?
  split
  · simp [Fin.ext_iff]
    omega
  · rw [dif_pos (by omega)]
    simp [Fin.ext_iff]
    omega

theorem not_iterate (n : Nat) (b : Bool) : not^[n] b = (b ^^ decide (Odd n)) := by
  induction n with
  | zero => simp
  | succ n ih => rw [Function.iterate_succ_apply', ih, decide_odd_succ, Bool.xor_not]

namespace Display

variable {d : Display}

/-- Every bit toggles its pixel once. -/
theorem draw_pixel_iterate (h : ∀ c ∈ spriteCells source x y address height, -2048 ≤ c)
    (k : Fin 2048) : (d.draw source x y address height).display.pixels.get k =
      not^[((spriteBits source x y address height).filter fun b =>
        bitCell x y b % 2048 = k).card] (d.pixels.get k) := by
  have hcount : (spriteCells source x y address height).countP (fun c => slot? c = some k) =
      (spriteCells source x y address height).countP fun c : Int => c % 2048 = k := by
    apply List.countP_congr
    intro c hc
    rw [decide_eq_true_eq, decide_eq_true_eq]
    exact slot?_eq_some_iff ⟨h c hc, lt_of_mem_spriteCells hc⟩
  rw [draw_pixel h, hcount, countP_spriteCells, not_iterate]

theorem draw_changed_iff (h : ∀ c ∈ spriteCells source x y address height, -2048 ≤ c) :
    (d.draw source x y address height).display.changed = true ↔
      d.changed = true ∨ (spriteBits source x y address height).Nonempty := by
  have hcells : spriteCells source x y address height ≠ [] ↔
      (spriteBits source x y address height).Nonempty := by
    constructor
    · intro hne
      obtain ⟨c, hc⟩ := List.exists_mem_of_ne_nil _ hne
      obtain ⟨b, hb, _⟩ := mem_spriteCells_iff_bit.mp hc
      exact ⟨b, hb⟩
    · rintro ⟨b, hb⟩
      exact List.ne_nil_of_mem (mem_spriteCells_iff_bit.mpr ⟨b, hb, rfl⟩)
  rw [draw_changed h, Bool.or_eq_true, Bool.not_eq_true', List.isEmpty_eq_false_iff, hcells]

/-- A draw anywhere is done or it is not. It fails exactly if some bit lies too far above the screen
or left of it to stand for a pixel. Then neither a pixel nor the flag has changed, since the lowest
bit comes first. Otherwise each bit toggles its pixel, some of them the same one, and raises the
flag. In the same way a loop over bare numbers fails before it has stored any. -/
theorem draw_is_done_or_not (d : Display) (source : SpriteSource) (x y address height : Int) :
    let bits := spriteBits source x y address height
    let drawn := d.draw source x y address height
    ((∃ c, drawn.answer = .error (.cellOutside c)) ↔ ∃ b ∈ bits, bitCell x y b < -2048) ∧
    ((∃ b ∈ bits, bitCell x y b < -2048) → drawn.display = d) ∧
    ((∀ b ∈ bits, -2048 ≤ bitCell x y b) →
      (∃ collided, drawn.answer = .ok collided) ∧
      (∀ k : Fin 2048, drawn.display.pixels.get k =
        not^[(bits.filter fun b => bitCell x y b % 2048 = k).card] (d.pixels.get k)) ∧
      (drawn.display.changed = true ↔ d.changed = true ∨ bits.Nonempty)) ∧
    ∀ m : Machine,
      let stored := spriteBits m.spriteSource x y address height
      let drawn := m.display.draw m.spriteSource x y address height
      ((∃ b ∈ stored, bitCell x y b < -2048) →
        ∃ c, Bare.BreaksOff (Bare.draw x y address height) m c) ∧
      ((∀ b ∈ stored, -2048 ≤ bitCell x y b) →
        Bare.Does (Bare.draw x y address height) m drawn.collided
          (m.setDisplay drawn.display)) := by
  intro bits drawn
  have hfails : (∃ b ∈ bits, bitCell x y b < -2048) → ∃ c, drawn = ⟨d, false, some c⟩ := by
    intro hlow
    obtain ⟨c, cells, hc, hlt⟩ := spriteCells_of_low (exists_low_bit_iff.mp hlow)
    exact ⟨c, draw_of_low hc hlt⟩
  refine ⟨⟨?_, ?_⟩, ?_, fun hbits => ?_, fun m => ⟨fun hlow => ?_, fun hbits => ?_⟩⟩
  · rintro ⟨c, hanswer⟩
    by_contra hnone
    have hcells := not_not.mp (mt exists_low_bit_iff.mpr hnone)
    rw [draw_answer hcells] at hanswer
    cases hanswer
  · intro hlow
    obtain ⟨c, hdrawn⟩ := hfails hlow
    exact ⟨c, by rw [hdrawn, Drawn.answer]⟩
  · intro hlow
    obtain ⟨c, hdrawn⟩ := hfails hlow
    rw [hdrawn]
  · have hcells := forall_spriteCells_iff.mpr hbits
    exact ⟨⟨_, draw_answer hcells⟩, draw_pixel_iterate hcells, draw_changed_iff hcells⟩
  · obtain ⟨c, cells, hc, hlt⟩ := spriteCells_of_low (exists_low_bit_iff.mp hlow)
    exact ⟨c, Bare.breaksOff_draw m hc (slot?_of_low hlt)⟩
  · exact Bare.does_draw m (forall_spriteCells_iff.mpr hbits)

set_option maxRecDepth 100000 in
/-- Two dots a screen apart. If the upper one is too high, nothing is drawn. One row further down
both stand for the first pixel, which comes on and goes off, and all that is left is the flag. The
numbers of a glyph do the same. -/
theorem distant_dots_meet :
    let dots : SpriteSource := fun a => if a = 0 ∨ a = 32 then 0x80 else 0
    let high := blank.draw dots 0 (-33) 0 33
    let low := blank.draw dots 0 (-32) 0 33
    let m := Machine.initial {} (.listed [0] 0)
    let glyph := m.display.draw m.spriteSource (-2) (-2) 0 5
    ((∃ b ∈ spriteBits dots 0 (-33) 0 33, bitCell 0 (-33) b < -2048) ∧
        (∃ c, high.answer = .error (.cellOutside c)) ∧ high.display = blank) ∧
      ((∀ b ∈ spriteBits dots 0 (-32) 0 33, -2048 ≤ bitCell 0 (-32) b) ∧
        (∃ collided, low.answer = .ok collided) ∧ low.display.pixels.get 0 = false ∧
        low.display.changed = true) ∧
      (∃ c, Bare.BreaksOff (Bare.draw (-3) (-40) 0 5) m c) ∧
      Bare.Does (Bare.draw (-2) (-2) 0 5) m glyph.collided (m.setDisplay glyph.display) := by
  intro dots high low m glyph
  have hhigh : ∃ b ∈ spriteBits dots 0 (-33) 0 33, bitCell 0 (-33) b < -2048 := by decide +kernel
  have hlow : ∀ b ∈ spriteBits dots 0 (-32) 0 33, -2048 ≤ bitCell 0 (-32) b := by decide +kernel
  have hsome : (spriteBits dots 0 (-32) 0 33).Nonempty := by decide +kernel
  have htwice : ((spriteBits dots 0 (-32) 0 33).filter fun b =>
      bitCell 0 (-32) b % 2048 = (0 : Fin 2048)).card = 2 := by decide +kernel
  obtain ⟨hfails, hkept, -, -⟩ := draw_is_done_or_not blank dots 0 (-33) 0 33
  obtain ⟨-, -, hdone, -⟩ := draw_is_done_or_not blank dots 0 (-32) 0 33
  obtain ⟨hanswer, hpixels, hchanged⟩ := hdone hlow
  obtain ⟨-, -, -, habove⟩ := draw_is_done_or_not blank dots (-3) (-40) 0 5
  obtain ⟨-, -, -, hglyph⟩ := draw_is_done_or_not blank dots (-2) (-2) 0 5
  refine ⟨⟨hhigh, hfails.mpr hhigh, hkept hhigh⟩, ⟨hlow, hanswer, ?_, hchanged.mpr (.inr hsome)⟩,
    (habove m).1 (by decide +kernel), (hglyph m).2 (by decide +kernel)⟩
  rw [hpixels 0, htwice]
  rfl

end Display

end Chip8
