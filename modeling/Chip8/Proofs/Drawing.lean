import Chip8.Proofs.Polling
import Mathlib.Data.Fintype.Prod
import Mathlib.Data.Set.Card
import Mathlib.Data.Set.SymmDiff
import Mathlib.Logic.Equiv.Fin.Basic

/-! A draw as a set of places on the screen. The places under the set bits of the sprite change,
and no others. -/
namespace Chip8

open scoped symmDiff

/-- A place on the screen, by its column and its row. -/
abbrev Spot : Type := Fin 64 × Fin 32

/-- The set bits of a sprite, by row and column, that the right and the lower edge leave. -/
def spriteBits (source : SpriteSource) (x y address height : Int) :
    Finset (Fin height.toNat × Fin 8) :=
  Finset.univ.filter fun b => (x + b.2 < 64 ∧ y + b.1 < 32) ∧
    spriteBit (source (UInt16.ofInt (address + b.1))) b.2 = true

/-- The places under them. -/
def spriteSpots (source : SpriteSource) (x y address height : Int) : Set Spot :=
  {p | ∃ b ∈ spriteBits source x y address height, (p.1 : Int) = x + b.2 ∧ (p.2 : Int) = y + b.1}

variable {source : SpriteSource} {x y address height : Int} {cells : List Int} {p : Spot}

theorem mem_spriteSpots : p ∈ spriteSpots source x y address height ↔
    SpriteCovers source x y address height p.1 p.2 := by
  simp only [spriteSpots, spriteBits, Set.mem_ofPred_eq, Finset.mem_filter, Finset.mem_univ,
    true_and, Prod.exists]
  constructor
  · rintro ⟨row, column, ⟨_, hb⟩, hx, hy⟩
    have hcolumn : (p.1 - x : Int) = column := by omega
    have hrow : (p.2 - y : Int) = row := by omega
    refine ⟨by omega, by omega, ?_⟩
    rw [hcolumn, hrow]
    exact hb
  · rintro ⟨hcolumn, hrow, hb⟩
    refine ⟨⟨(p.2 - y).toNat, by omega⟩, ⟨(p.1 - x).toNat, by omega⟩, ?_⟩
    simp only [Int.toNat_of_nonneg hcolumn.1, Int.toNat_of_nonneg hrow.1]
    exact ⟨⟨⟨by omega, by omega⟩, hb⟩, by omega, by omega⟩

theorem ncard_symmDiff_add (s t : Set Spot) :
    (s ∆ t).ncard + 2 * (s ∩ t).ncard = s.ncard + t.ncard := by
  have hs := Set.ncard_inter_add_ncard_sdiff_eq_ncard s t
  have ht := Set.ncard_inter_add_ncard_sdiff_eq_ncard t s
  have hd : (s ∆ t).ncard = (s \ t).ncard + (t \ s).ncard :=
    Set.ncard_union_eq disjoint_sdiff_sdiff
  rw [Set.inter_comm t s] at ht
  omega

namespace Drawing

variable {d : Drawing}

/-- As long as no pixel comes twice, those that were lit are still lit when the draw gets there. -/
theorem flipCells_collided (h : ∀ c ∈ cells, (slot? c).isSome)
    (hs : cells.Pairwise fun a b => slot? a ≠ slot? b) :
    (d.flipCells cells).collided = true ↔ d.collided = true ∨
      ∃ c ∈ cells, ∃ k, slot? c = some k ∧ d.pixels.get k = true := by
  induction cells generalizing d with
  | nil => simp [flipCells]
  | cons c cells ih =>
    obtain ⟨j, hj⟩ := Option.isSome_iff_exists.mp (h c (by simp))
    obtain ⟨hfirst, hrest⟩ := List.pairwise_cons.mp hs
    have hkept : ∀ b ∈ cells, ∀ k, slot? b = some k →
        (d.flip j).pixels.get k = d.pixels.get k := by
      intro b hb k hk
      have hne : j ≠ k := by
        rintro rfl
        exact hfirst b hb (hj.trans hk.symm)
      rw [flip_pixel, decide_eq_false hne, Bool.xor_false]
    have hlater : (∃ b ∈ cells, ∃ k, slot? b = some k ∧ (d.flip j).pixels.get k = true) ↔
        ∃ b ∈ cells, ∃ k, slot? b = some k ∧ d.pixels.get k = true := by
      constructor
      · rintro ⟨b, hb, k, hk, hlit⟩
        exact ⟨b, hb, k, hk, (hkept b hb k hk).symm.trans hlit⟩
      · rintro ⟨b, hb, k, hk, hlit⟩
        exact ⟨b, hb, k, hk, (hkept b hb k hk).trans hlit⟩
    have hnow : (d.flip j).collided = true ↔ d.collided = true ∨ d.pixels.get j = true :=
      Bool.or_eq_true_iff
    simp only [flipCells, hj]
    rw [ih (fun b hb => h b (by simp [hb])) hrest, hlater, hnow, List.exists_mem_cons_iff, hj,
      or_assoc]
    simp

end Drawing

/-- The number of the pixel at a place. -/
def spotNumber : Spot ≃ Fin 2048 := (Equiv.prodComm _ _).trans finProdFinEquiv

theorem spotNumber_val (p : Spot) : (spotNumber p).val = p.1 + 64 * p.2 := rfl

namespace Display

variable {d e : Display}

theorem get_spotNumber (d : Display) (p : Spot) :
    d.pixels.get (spotNumber p) = d.lit p.1 p.2 :=
  (d.lit_eq_get rfl).symm

theorem pixels_eq_of_lit (h : ∀ p : Spot, d.lit p.1 p.2 = e.lit p.1 p.2) :
    d.pixels = e.pixels := by
  apply Vector.ext
  intro k hk
  have hp := h (spotNumber.symm ⟨k, hk⟩)
  rw [← get_spotNumber, ← get_spotNumber, Equiv.apply_symm_apply] at hp
  exact hp

/-- The places of the lit pixels. -/
def litSpots (d : Display) : Set Spot := {p | d.lit p.1 p.2 = true}

theorem mem_litSpots : p ∈ d.litSpots ↔ d.lit p.1 p.2 = true := Iff.rfl

theorem pixels_eq_of_litSpots (h : d.litSpots = e.litSpots) : d.pixels = e.pixels := by
  apply pixels_eq_of_lit
  intro p
  rw [Bool.eq_iff_iff, ← mem_litSpots, ← mem_litSpots, h]

theorem litCount_eq_ncard (d : Display) : d.litCount = d.litSpots.ncard := by
  have hlist : d.pixels.toList = (List.finRange 2048).map d.pixels.get := by
    apply List.ext_getElem
    · simp
    · intro k _ _
      simp [Vector.get]
  have hset : spotNumber '' d.litSpots =
      ((List.finRange 2048).filter fun k => d.pixels.get k = true).toFinset := by
    ext k
    simp only [Equiv.image_eq_preimage_symm, Set.mem_preimage, mem_litSpots, ← get_spotNumber,
      Equiv.apply_symm_apply, Finset.mem_coe, List.mem_toFinset, List.mem_filter,
      List.mem_finRange, true_and, decide_eq_true_eq]
  rw [← Set.ncard_image_of_injective d.litSpots spotNumber.injective, hset, Set.ncard_coe_finset,
    List.toFinset_card_of_nodup ((List.nodup_finRange _).filter _), litCount, hlist, List.count,
    List.countP_map, List.countP_eq_length_filter]
  rfl

/-- From `d` to `e` exactly the places of `s` change. A collision means that one of them was lit. -/
structure Toggled (s : Set Spot) (d e : Display) (collided : Bool) : Prop where
  lit_ne_iff : ∀ p : Spot, e.lit p.1 p.2 ≠ d.lit p.1 p.2 ↔ p ∈ s
  collided_iff : collided = true ↔ ∃ p ∈ s, d.lit p.1 p.2 = true
  changed_iff : e.changed = true ↔ d.changed = true ∨ s.Nonempty
  changed_iff_pixels_ne : e.changed = true ↔ d.changed = true ∨ e.pixels ≠ d.pixels
  litCount_sub : (e.litCount : Int) - d.litCount =
    s.ncard - 2 * {p ∈ s | d.lit p.1 p.2 = true}.ncard

theorem litSpots_draw (d : Display) (source : SpriteSource) (address height : Int) (hx : 0 ≤ x)
    (hy : 0 ≤ y) : (d.draw source x y address height).display.litSpots =
      d.litSpots ∆ spriteSpots source x y address height := by
  ext p
  rw [Set.mem_symmDiff, mem_litSpots, mem_litSpots, lit_draw d source address height hx hy,
    mem_spriteSpots]
  cases d.lit p.1 p.2 <;> simp

/-- Right of and below the corner of the screen, the cells of a sprite are the numbers of its
places. -/
theorem exists_slot?_iff (hx : 0 ≤ x) (hy : 0 ≤ y) {q : Fin 2048 → Prop} :
    (∃ c ∈ spriteCells source x y address height, ∃ k, slot? c = some k ∧ q k) ↔
      ∃ p ∈ spriteSpots source x y address height, q (spotNumber p) := by
  constructor
  · rintro ⟨c, hc, k, hk, hq⟩
    obtain ⟨p, rfl⟩ := spotNumber.surjective k
    have hp : c = p.1 + 64 * p.2 := by
      rw [(slot?_eq_some_of_nonneg (nonneg_of_mem_spriteCells hx hy hc)).mp hk, spotNumber_val]
      norm_cast
    rw [hp, mem_spriteCells_iff_covers hx] at hc
    exact ⟨p, mem_spriteSpots.mpr hc, hq⟩
  · rintro ⟨p, hp, hq⟩
    have hc := (mem_spriteCells_iff_covers hx).mpr (mem_spriteSpots.mp hp)
    refine ⟨_, hc, spotNumber p, ?_, hq⟩
    rw [slot?_eq_some_of_nonneg (nonneg_of_mem_spriteCells hx hy hc), spotNumber_val]
    norm_cast

theorem draw_collided_iff (d : Display) (source : SpriteSource) (address height : Int)
    (hx : 0 ≤ x) (hy : 0 ≤ y) : (d.draw source x y address height).collided = true ↔
      ∃ p ∈ spriteSpots source x y address height, d.lit p.1 p.2 = true := by
  have hcells : ∀ c ∈ spriteCells source x y address height, 0 ≤ c :=
    fun c hc => nonneg_of_mem_spriteCells hx hy hc
  have hslots : ∀ c ∈ spriteCells source x y address height, (slot? c).isSome := fun c hc =>
    isSome_slot?.mpr ⟨low_of_nonneg hx hy c hc, lt_of_mem_spriteCells hc⟩
  have hapart : (spriteCells source x y address height).Pairwise
      fun a b => slot? a ≠ slot? b := by
    refine (spriteCells_pairwise source x y address height).imp_of_mem fun {a b} ha hb hlt => ?_
    intro hab
    obtain ⟨k, hk⟩ := Option.isSome_iff_exists.mp (hslots a ha)
    have hak := (slot?_eq_some_of_nonneg (hcells a ha)).mp hk
    have hbk := (slot?_eq_some_of_nonneg (hcells b hb)).mp (hab.symm.trans hk)
    omega
  have hdrawn := Drawing.flipCells_collided (d := ⟨d.pixels, false, none⟩) hslots hapart
  rw [exists_slot?_iff hx hy, or_iff_right Bool.false_ne_true] at hdrawn
  simp only [get_spotNumber] at hdrawn
  exact hdrawn

theorem draw_answer (h : ∀ c ∈ spriteCells source x y address height, -2048 ≤ c) :
    (d.draw source x y address height).answer =
      .ok (d.draw source x y address height).collided := by
  rw [Drawn.answer, draw_outside_eq_none h]

theorem pixels_ne_iff_exists_lit_ne :
    e.pixels ≠ d.pixels ↔ ∃ p : Spot, e.lit p.1 p.2 ≠ d.lit p.1 p.2 := by
  constructor
  · intro h
    by_contra hnone
    exact h (pixels_eq_of_lit fun p => by_contra fun hp => hnone ⟨p, hp⟩)
  · rintro ⟨p, hp⟩ h
    rw [lit, lit, h] at hp
    exact hp rfl

/-- Right of and below the corner of the screen, a draw toggles the places of the sprite. -/
theorem draw_toggled (d : Display) (source : SpriteSource) (address height : Int) (hx : 0 ≤ x)
    (hy : 0 ≤ y) : Toggled (spriteSpots source x y address height) d
      (d.draw source x y address height).display
      (d.draw source x y address height).collided := by
  have hlit : ∀ p : Spot, (d.draw source x y address height).display.lit p.1 p.2 ≠
      d.lit p.1 p.2 ↔ p ∈ spriteSpots source x y address height := by
    intro p
    rw [lit_draw d source address height hx hy, mem_spriteSpots]
    cases d.lit p.1 p.2 <;> simp
  have hpixels : (d.draw source x y address height).display.changed = true ↔ d.changed = true ∨
      (d.draw source x y address height).display.pixels ≠ d.pixels := by
    rw [exact_draw d source address height hx hy, Bool.or_eq_true, decide_eq_true_eq]
  refine ⟨hlit, d.draw_collided_iff source address height hx hy, ?_, hpixels, ?_⟩
  · rw [hpixels, pixels_ne_iff_exists_lit_ne]
    simp only [hlit]
    rfl
  · have hsum := ncard_symmDiff_add d.litSpots (spriteSpots source x y address height)
    have hboth : {p ∈ spriteSpots source x y address height | d.lit p.1 p.2 = true} =
        d.litSpots ∩ spriteSpots source x y address height := Set.inter_comm _ _
    rw [litCount_eq_ncard, litCount_eq_ncard, litSpots_draw d source address height hx hy, hboth]
    omega

theorem toggled_spot {s : Set Spot} {collided : Bool} (h : Toggled s d e collided) (hp : p ∈ s) :
    e.lit p.1 p.2 = !d.lit p.1 p.2 :=
  Bool.eq_not.mpr ((h.lit_ne_iff p).mpr hp)

/-- A second draw finds lit what the first one found dark. -/
theorem toggled_twice {f : Display} {s : Set Spot} {first second : Bool}
    (h : Toggled s d e first) (h' : Toggled s e f second) :
    (second = true ↔ ∃ p ∈ s, d.lit p.1 p.2 = false) ∧
      ((first = true ∨ second = true) ↔ s.Nonempty) ∧
      (f.changed = true ↔ d.changed = true ∨ s.Nonempty) := by
  have hsecond : second = true ↔ ∃ p ∈ s, d.lit p.1 p.2 = false := by
    rw [h'.collided_iff]
    refine exists_congr fun p => and_congr_right fun hp => ?_
    rw [toggled_spot h hp, Bool.not_eq_true']
  refine ⟨hsecond, ?_, ?_⟩
  · rw [h.collided_iff, hsecond]
    constructor
    · rintro (⟨p, hp, _⟩ | ⟨p, hp, _⟩)
      · exact ⟨p, hp⟩
      · exact ⟨p, hp⟩
    · rintro ⟨p, hp⟩
      cases hlit : d.lit p.1 p.2 with
      | true => exact .inl ⟨p, hp, hlit⟩
      | false => exact .inr ⟨p, hp, hlit⟩
  · rw [h'.changed_iff, h.changed_iff, or_assoc, or_self]

theorem draw_draw_pixels (d : Display) (source : SpriteSource) (address height : Int)
    (hx : 0 ≤ x) (hy : 0 ≤ y) :
    ((d.draw source x y address height).display.draw source x y address height).display.pixels =
      d.pixels := by
  apply pixels_eq_of_litSpots
  rw [litSpots_draw _ source address height hx hy, litSpots_draw _ source address height hx hy,
    symmDiff_symmDiff_cancel_right]

end Display

/-- A sprite to be drawn, with the place of its upper left corner. -/
structure Sprite where
  x : Int
  y : Int
  address : Int
  height : Int
deriving DecidableEq

namespace Sprite

/-- Neither left of the screen nor above it. -/
def Nonneg (s : Sprite) : Prop := 0 ≤ s.x ∧ 0 ≤ s.y

instance (s : Sprite) : Decidable s.Nonneg := inferInstanceAs (Decidable (_ ∧ _))

def spots (s : Sprite) (source : SpriteSource) : Set Spot :=
  spriteSpots source s.x s.y s.address s.height

end Sprite

namespace Display

variable {d e : Display} {sprites others : List Sprite}

def drawSprite (source : SpriteSource) (d : Display) (s : Sprite) : Display :=
  (d.draw source s.x s.y s.address s.height).display

def drawAll (d : Display) (source : SpriteSource) (sprites : List Sprite) : Display :=
  sprites.foldl (drawSprite source) d

theorem eq_of_litSpots (hs : d.litSpots = e.litSpots)
    (hc : d.changed = true ↔ e.changed = true) : d = e := by
  have hp := pixels_eq_of_litSpots hs
  have hc := Bool.eq_iff_iff.mpr hc
  cases d
  cases e
  cases hp
  cases hc
  rfl

/-- Which of two sprites comes first makes no difference. -/
theorem drawSprite_comm (d : Display) (source : SpriteSource) {s t : Sprite} (hs : s.Nonneg)
    (ht : t.Nonneg) : drawSprite source (drawSprite source d s) t =
      drawSprite source (drawSprite source d t) s := by
  have hspots : ∀ (d : Display) {s : Sprite}, s.Nonneg →
      (drawSprite source d s).litSpots = d.litSpots ∆ s.spots source :=
    fun d s hs => litSpots_draw d source s.address s.height hs.1 hs.2
  have hchanged : ∀ (d : Display) {s : Sprite}, s.Nonneg →
      ((drawSprite source d s).changed = true ↔ d.changed = true ∨ (s.spots source).Nonempty) :=
    fun d s hs => (draw_toggled d source s.address s.height hs.1 hs.2).changed_iff
  apply eq_of_litSpots
  · rw [hspots _ ht, hspots d hs, hspots _ hs, hspots d ht, symmDiff_right_comm]
  · rw [hchanged _ ht, hchanged d hs, hchanged _ hs, hchanged d ht, or_right_comm]

theorem drawAll_perm (d : Display) (source : SpriteSource) (h : sprites.Perm others)
    (hs : ∀ s ∈ sprites, s.Nonneg) : d.drawAll source sprites = d.drawAll source others :=
  h.foldl_eq' (fun s hs' t ht d => drawSprite_comm d source (hs s hs') (hs t ht)) d

/-- A sprite that is drawn twice over leaves every pixel as it was. The first draw collides if a
place of the sprite was lit, the second if one was dark, so one of them does unless the sprite has
no place on the screen, and the flag is raised in the same case. Any number of sprites leave the
same screen and the same flag in whatever order they are drawn. -/
theorem draw_undoes_itself (d : Display) (source : SpriteSource) (x y address height : Int)
    (hx : 0 ≤ x) (hy : 0 ≤ y) :
    let s := spriteSpots source x y address height
    let once := d.draw source x y address height
    let twice := once.display.draw source x y address height
    twice.display.pixels = d.pixels ∧
    (∃ first second, once.answer = .ok first ∧ twice.answer = .ok second ∧
      (first = true ↔ ∃ p ∈ s, d.lit p.1 p.2 = true) ∧
      (second = true ↔ ∃ p ∈ s, d.lit p.1 p.2 = false) ∧
      ((first = true ∨ second = true) ↔ s.Nonempty)) ∧
    (once.display.changed = true ↔ d.changed = true ∨ s.Nonempty) ∧
    (twice.display.changed = true ↔ d.changed = true ∨ s.Nonempty) ∧
    ∀ sprites others, (∀ sprite ∈ sprites, sprite.Nonneg) → sprites.Perm others →
      d.drawAll source sprites = d.drawAll source others := by
  intro s once twice
  have hfirst : Toggled s d once.display once.collided := draw_toggled d source address height hx hy
  have hsecond : Toggled s once.display twice.display twice.collided :=
    draw_toggled once.display source address height hx hy
  obtain ⟨hdark, hone, hchanged⟩ := toggled_twice hfirst hsecond
  refine ⟨draw_draw_pixels d source address height hx hy, ⟨once.collided, twice.collided, ?_, ?_,
    hfirst.collided_iff, hdark, hone⟩, hfirst.changed_iff, hchanged,
    fun sprites others hs hp => drawAll_perm d source hp hs⟩
  · exact draw_answer (low_of_nonneg hx hy)
  · exact draw_answer (low_of_nonneg hx hy)

/-- Over a dot in the corner both draws of a bar collide, and the dot is back after them. Three bars
that overlap look the same in another order. -/
theorem corner_bar_undone :
    let d := (blank.draw (fun _ => 0x80) 63 31 0 1).display
    let source : SpriteSource := fun a => if a = 0 then 0xC0 else 0x80
    let once := d.draw source 63 30 0xFFFF 9
    let twice := once.display.draw source 63 30 0xFFFF 9
    let sprites : List Sprite := [⟨60, 30, 0, 5⟩, ⟨61, 29, 0xFFFE, 3⟩, ⟨63, 31, 7, 1⟩]
    let others : List Sprite := [⟨61, 29, 0xFFFE, 3⟩, ⟨63, 31, 7, 1⟩, ⟨60, 30, 0, 5⟩]
    ((0 : Int) ≤ 63 ∧ (0 : Int) ≤ 30) ∧ twice.display.pixels = d.pixels ∧
      (once.answer = .ok true ∧ twice.answer = .ok true) ∧ d.lit 63 31 = true ∧
      ((∀ sprite ∈ sprites, sprite.Nonneg) ∧ sprites.Perm others ∧
        d.drawAll source sprites = d.drawAll source others) := by
  intro d source once twice sprites others
  have hlit : d.lit 63 30 = false ∧ d.lit 63 31 = true := by decide +kernel
  have hup : ((63, 30) : Spot) ∈ spriteSpots source 63 30 0xFFFF 9 :=
    mem_spriteSpots.mpr (by decide)
  have hdown : ((63, 31) : Spot) ∈ spriteSpots source 63 30 0xFFFF 9 :=
    mem_spriteSpots.mpr (by decide)
  obtain ⟨hback, ⟨first, second, honce, htwice, hfirst, hsecond, -⟩, -, -, horder⟩ :=
    draw_undoes_itself d source 63 30 0xFFFF 9 (by decide) (by decide)
  obtain rfl : first = true := hfirst.mpr ⟨_, hdown, hlit.2⟩
  obtain rfl : second = true := hsecond.mpr ⟨_, hup, hlit.1⟩
  have hnonneg : ∀ sprite ∈ sprites, sprite.Nonneg := by decide
  have hperm : sprites.Perm others := by decide
  exact ⟨by decide, hback, ⟨honce, htwice⟩, hlit.2, hnonneg, hperm,
    horder sprites others hnonneg hperm⟩

end Display

namespace Machine

variable {m r : Machine} {x y height : Fin 16}

theorem step_of_draw (hr : m.ready? = some r)
    (hi : Instruction.decode r.fetch = some (.draw x y height)) :
    m.step.2 = ((r.setPc (r.pc + 2)).draw x y height).countStep := by
  rw [step_of_ready hr, cycle_of_instruction hi]
  rfl

theorem register_setFlag (m : Machine) (b : Bool) :
    (m.setFlag b).register 15 = if b then 1 else 0 := by
  simp [setFlag, setRegister, register]

/-- Right of and below the corner of the screen a draw, whatever the size of the sprite, toggles
the places under the set bits of the sprite and tells whether one of them was lit. The draw of a
program does so at the place that its registers named before the flag was stored in one of them. -/
theorem draw_toggles_its_places :
    (∀ (d : Display) (source : SpriteSource) (x y address height : Int), 0 ≤ x → 0 ≤ y →
      let drawn := d.draw source x y address height
      drawn.answer = .ok drawn.collided ∧
        d.Toggled (spriteSpots source x y address height) drawn.display drawn.collided) ∧
    ∀ (m r : Machine) (x y height : Fin 16), m.ready? = some r →
      Instruction.decode r.fetch = some (.draw x y height) →
      ∃ collided, m.display.Toggled
          (spriteSpots r.spriteSource (r.register x).toNat (r.register y).toNat r.i.toNat height)
          m.step.2.display collided ∧
        m.step.2.register 15 = (if collided then 1 else 0) ∧ m.step.2.i = m.i := by
  refine ⟨fun d source x y address height hx hy => ?_, fun m r x y height hr hi => ?_⟩
  · exact ⟨Display.draw_answer (low_of_nonneg hx hy), d.draw_toggled source address height hx hy⟩
  · have hdisplay : r.display = m.display := ready?_display hr
    have hindex : r.i = m.i := by
      obtain ⟨v, p, rfl⟩ := ready?_eq_some hr
      rfl
    refine ⟨(r.display.draw r.spriteSource (r.register x).toNat (r.register y).toNat r.i.toNat
      height).collided, ?_, ?_, ?_⟩
    · rw [step_of_draw hr hi, ← hdisplay]
      exact r.display.draw_toggled r.spriteSource r.i.toNat height (by omega) (by omega)
    · rw [step_of_draw hr hi]
      exact register_setFlag _ _
    · rw [step_of_draw hr hi, ← hindex]
      rfl

/-- The last register names both coordinates of a glyph that the lower edge cuts off and whose upper
row is on the screen already. -/
def flaggedGlyph : List Operation :=
  [.poke 0x200 0xDF, .poke 0x201 0xF1, .poke 0x202 0xDF, .poke 0x203 0xF5, .setRegister 15 30,
    .step, .setRegister 15 30]

set_option maxRecDepth 100000 in
/-- The upper row goes off, the lower one comes on, and the register is left with the collision. In
the corner a pixel that was lit goes off in the same way. -/
theorem flagged_glyph_collides :
    let d := (Display.blank.draw (fun _ => 0x80) 63 31 0 1).display
    let drawn := d.draw (fun _ => 0xC0) 63 30 0xFFFF 9
    let m := (initial {} (.listed [0] 0)).after flaggedGlyph
    (((0 : Int) ≤ 63 ∧ (0 : Int) ≤ 30) ∧ drawn.answer = .ok true ∧
        drawn.display.lit 63 30 = true ∧ drawn.display.lit 63 31 = false) ∧
      ∃ r, (m.ready? = some r ∧ Instruction.decode r.fetch = some (.draw 15 15 5)) ∧
        m.step.2.register 15 = 1 ∧ m.step.2.i = 0 ∧ m.step.2.display.lit 30 30 = false ∧
        m.step.2.display.lit 30 31 = true := by
  intro d drawn m
  have hdrawn : d.lit 63 30 = false ∧ d.lit 63 31 = true := by decide +kernel
  have hm : (m.fault = none ∧ m.keypad.waiting = none) ∧
      Instruction.decode m.fetch = some (.draw 15 15 5) ∧ m.register 15 = 30 ∧ m.i = 0 ∧
      m.display.lit 30 30 = true ∧ m.display.lit 30 31 = false := by decide +kernel
  obtain ⟨⟨hfault, hwaiting⟩, hi, hregister, hindex, hupper, hlower⟩ := hm
  obtain ⟨hdraw, hprogram⟩ := draw_toggles_its_places
  obtain ⟨hanswer, htoggled⟩ := hdraw d (fun _ => 0xC0) 63 30 0xFFFF 9 (by decide) (by decide)
  have hup : ((63, 30) : Spot) ∈ spriteSpots (fun _ => 0xC0) 63 30 0xFFFF 9 :=
    mem_spriteSpots.mpr (by decide)
  have hdown : ((63, 31) : Spot) ∈ spriteSpots (fun _ => 0xC0) 63 30 0xFFFF 9 :=
    mem_spriteSpots.mpr (by decide)
  have hhit : drawn.collided = true := htoggled.collided_iff.mpr ⟨_, hdown, hdrawn.2⟩
  have hready : m.ready? = some m := ready?_of_running hfault hwaiting
  obtain ⟨collided, hglyph, hflag, hkept⟩ := hprogram m m 15 15 5 hready hi
  rw [hregister, hindex] at hglyph
  have hrow : ∀ py : Fin 32, SpriteCovers m.spriteSource 30 30 0 5 30 py → ((30, py) : Spot) ∈
      spriteSpots m.spriteSource (30 : UInt8).toNat (30 : UInt8).toNat (0 : UInt16).toNat 5 :=
    fun _ h => mem_spriteSpots.mpr h
  have hfirst := hrow 30 (by decide +kernel)
  have hsecond := hrow 31 (by decide +kernel)
  have hcollided : collided = true := hglyph.collided_iff.mpr ⟨_, hfirst, hupper⟩
  refine ⟨⟨by decide, ?_, ?_, ?_⟩, m, ⟨hready, hi⟩, ?_, ?_, ?_, ?_⟩
  · rw [← hhit]
    exact hanswer
  · exact (Display.toggled_spot htoggled hup).trans (by rw [hdrawn.1]; rfl)
  · exact (Display.toggled_spot htoggled hdown).trans (by rw [hdrawn.2]; rfl)
  · rw [hflag, hcollided]
    rfl
  · exact hkept.trans hindex
  · exact (Display.toggled_spot hglyph hfirst).trans (by rw [hupper]; rfl)
  · exact (Display.toggled_spot hglyph hsecond).trans (by rw [hlower]; rfl)

end Machine

end Chip8
