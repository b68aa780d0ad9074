import Chip8.Proofs.Bare.View

/-! Drawing and the keys on bare numbers. -/
namespace Chip8

def Machine.flip (m : Machine) (k : Fin 2048) : Machine :=
  m.setDisplay ⟨((Drawing.mk m.display.pixels false none).flip k).pixels, m.display.changed⟩

namespace Bare

variable {m m' m'' : Machine} {cells more : List Int} {lits lits' : List Bool} {c : Int}
  {k : Fin 2048}

theorem does_clear (m : Machine) : Does clear m () (m.setDisplay m.display.clear) := by
  have hp : m.bare.pixels.map (fun _ => false) = Display.dark.toList := by
    rw [List.map_const', Display.dark, Vector.toList_replicate]
    simp [Machine.bare]
  apply does_modify
  rw [hp, Machine.setDisplay, Display.clear, ← Vector.any_toList]
  rfl

/-- Flipping the cells takes `m` to `m'`, and those of `lits` were lit. The flag is left to be
raised. -/
structure Flips (m : Machine) (cells : List Int) (lits : List Bool) (m' : Machine) : Prop where
  length_eq : lits.length = cells.length
  flipped : ∀ b more, (Drawing.mk m.display.pixels b none).flipCells (cells ++ more) =
    (Drawing.mk m'.display.pixels (b || lits.any id) none).flipCells more
  rest : m' = m.setDisplay ⟨m'.display.pixels, m.display.changed⟩

theorem flips_nil (m : Machine) : Flips m [] [] m := ⟨rfl, fun b more => by simp, rfl⟩

theorem Flips.append (h : Flips m cells lits m') (h' : Flips m' more lits' m'') :
    Flips m (cells ++ more) (lits ++ lits') m'' := by
  constructor
  · rw [List.length_append, List.length_append, h.length_eq, h'.length_eq]
  · intro b rest
    rw [List.append_assoc, h.flipped, h'.flipped, List.any_append, Bool.or_assoc]
  · rw [h'.rest, h.rest]
    rfl

theorem flips_single (hk : slot? c = some k) (m : Machine) :
    Flips m [c] [m.display.pixels.get k] (m.flip k) := by
  refine ⟨rfl, fun b more => ?_, rfl⟩
  simp only [List.singleton_append, Drawing.flipCells, hk, List.any_cons, List.any_nil,
    Bool.or_false]
  rfl

/-- Both ways of counting, from the first pixel and from the last, are those of a list. -/
theorem place?_eq_slot? (c : Int) : place? 2048 c = (slot? c).map Fin.val := by
  unfold place? slot?
  split
  · rw [dif_pos ‹_›]
    rfl
  · rw [dif_neg ‹_›]
    split
    · rw [dif_pos ‹_›]
      rfl
    · rw [dif_neg ‹_›]
      rfl

theorem place?_pixels (m : Machine) (c : Int) :
    place? m.bare.pixels.length c = (slot? c).map Fin.val := by
  have hlength : m.bare.pixels.length = 2048 := by simp [Machine.bare]
  rw [hlength, place?_eq_slot?]

theorem does_flipCells (h : ∀ c ∈ cells, (slot? c).isSome) (m : Machine) :
    ∃ lits m', Does (flipCells cells) m lits m' ∧ Flips m cells lits m' := by
  induction cells generalizing m with
  | nil => exact ⟨[], m, does_pure [] m, flips_nil m⟩
  | cons c cells ih =>
    obtain ⟨k, hk⟩ := Option.isSome_iff_exists.mp (h c (by simp))
    obtain ⟨lits, m', hd, hf⟩ := ih (fun c hc => h c (by simp [hc])) (m.flip k)
    refine ⟨m.display.pixels.get k :: lits, m', ?_, (flips_single hk m).append hf⟩
    have hplace : place? m.bare.pixels.length c = some (k : Nat) := by
      rw [place?_pixels, hk]
      rfl
    have hlt : (k : Nat) < m.bare.pixels.length := by simp [Machine.bare]
    have he : m.bare.pixels[(k : Nat)] = m.display.pixels.get k := Vector.getElem_toList _
    apply does_bind (does_get m)
    apply does_bind (does_item_at hplace hlt m)
    apply does_bind (does_get m)
    apply does_bind (does_replaced_at hplace _ m)
    rw [he]
    have hb : ({ m.bare with pixels := m.bare.pixels.set k !m.display.pixels.get k } : Bare) =
        (m.flip k).bare := by
      simp only [Machine.bare, Machine.flip, Machine.setDisplay, Drawing.flip, Vector.toList_set]
      rfl
    apply does_bind (does_modify hb)
    exact does_bind hd (does_pure _ _)

theorem breaksOff_flipCells (h : slot? c = none) (m : Machine) :
    BreaksOff (flipCells (c :: cells)) m c := by
  have hplace : place? m.bare.pixels.length c = none := by
    rw [place?_pixels, h]
    rfl
  exact breaksOff_after (does_get m) (breaksOff_bind (breaksOff_item hplace m) _)

theorem rowCells_toNat (bits : UInt8) (x y : Int) :
    rowCells bits.toNat x y = Chip8.rowCells bits x y := by
  have hbit : ∀ k : Nat, (bits.toNat : Int) / 2 ^ k % 2 = 1 ↔ bits.toNat.testBit k = true := by
    intro k
    rw [Nat.testBit_eq_decide_div_mod_eq, decide_eq_true_iff]
    norm_cast
  unfold rowCells Chip8.rowCells
  congr
  funext column
  simp only [hbit, spriteBit]
  congr

/-- Pixel numbers under a row of a sprite, as `m` has it in memory. -/
def spriteRow (m : Machine) (x y address : Int) (row : Nat) : List Int :=
  if y + row < 32 then
    Chip8.rowCells (m.spriteSource (UInt16.ofInt (address + row))) x (y + row)
  else []

def spriteRows (m : Machine) (x y address : Int) (rows : List Nat) : List Int :=
  rows.flatMap (spriteRow m x y address)

theorem spriteRow_bare (m : Machine) (x y address : Int) (row : Nat) :
    (if y + row < 32 then rowCells (m.memory.read ((address + row) % 65536)).toNat x (y + row)
      else []) = spriteRow m x y address row := by
  rw [rowCells_toNat, spriteRow, Machine.spriteSource, toNat_address]

theorem Flips.memory_eq (h : Flips m cells lits m') : m'.memory = m.memory := by
  rw [h.rest]
  rfl

theorem Flips.spriteRows_eq (h : Flips m cells lits m') (x y address : Int) (rows : List Nat) :
    spriteRows m' x y address rows = spriteRows m x y address rows := by
  unfold spriteRows
  congr 1
  funext row
  simp only [spriteRow, Machine.spriteSource, h.memory_eq]

theorem does_drawRows (x y address : Int) (rows : List Nat) (m : Machine)
    (h : ∀ c ∈ spriteRows m x y address rows, (slot? c).isSome) :
    ∃ lits m', Does (drawRows x y address rows) m lits m' ∧
      Flips m (spriteRows m x y address rows) lits m' := by
  induction rows generalizing m with
  | nil => exact ⟨[], m, does_pure [] m, flips_nil m⟩
  | cons row rows ih =>
    simp only [spriteRows, List.flatMap_cons, List.mem_append] at h
    obtain ⟨lits, m', hd, hf⟩ := does_flipCells (fun c hc => h c (.inl hc)) m
    have hrows := hf.spriteRows_eq x y address rows
    obtain ⟨lits', m'', hd', hf'⟩ := ih m' (by rw [hrows]; exact fun c hc => h c (.inr hc))
    refine ⟨lits ++ lits', m'', ?_, ?_⟩
    · apply does_bind (does_read m _)
      rw [spriteRow_bare]
      apply does_bind hd
      exact does_bind hd' (does_pure _ _)
    · rw [hrows] at hf'
      exact hf.append hf'

/-- Rows without a cell only read memory. -/
theorem breaksOff_drawRows (x y address : Int) {rows : List Nat} (m : Machine)
    (h : spriteRows m x y address rows = c :: cells) (hc : slot? c = none) :
    BreaksOff (drawRows x y address rows) m c := by
  induction rows with
  | nil => cases h
  | cons row rows ih =>
    rw [spriteRows, List.flatMap_cons] at h
    refine breaksOff_after (does_read m _) ?_
    rw [spriteRow_bare]
    cases hrow : spriteRow m x y address row with
    | nil =>
      rw [hrow, List.nil_append] at h
      exact breaksOff_after (does_pure [] m) (breaksOff_bind (ih h) _)
    | cons first others =>
      rw [hrow, List.cons_append, List.cons.injEq] at h
      rw [h.1]
      exact breaksOff_bind (breaksOff_flipCells hc m) _

/-- Where every cell has its slot, no index is without its place. -/
theorem does_draw (m : Machine) {x y address height : Int}
    (h : ∀ c ∈ spriteCells m.spriteSource x y address height, -2048 ≤ c) :
    Does (draw x y address height) m
      (m.display.draw m.spriteSource x y address height).collided
      (m.setDisplay (m.display.draw m.spriteSource x y address height).display) := by
  have hcells : ∀ c ∈ spriteCells m.spriteSource x y address height, (slot? c).isSome :=
    fun c hc => isSome_slot?.mpr ⟨h c hc, lt_of_mem_spriteCells hc⟩
  obtain ⟨lits, m', hd, hf⟩ := does_drawRows x y address (List.range height.toNat) m hcells
  have hdrawn : (Drawing.mk m.display.pixels false none).flipCells
      (spriteCells m.spriteSource x y address height) = ⟨m'.display.pixels, lits.any id, none⟩ := by
    have := hf.flipped false []
    rw [List.append_nil] at this
    exact this
  have hempty : (spriteCells m.spriteSource x y address height).isEmpty = lits.isEmpty := by
    rw [Bool.eq_iff_iff, List.isEmpty_iff_length_eq_zero, List.isEmpty_iff_length_eq_zero,
      hf.length_eq]
    rfl
  have hlast : ({ m'.bare with changed := m'.bare.changed || !lits.isEmpty } : Bare) =
      (m.setDisplay ⟨m'.display.pixels, m.display.changed || !lits.isEmpty⟩).bare := by
    rw [hf.rest]
    rfl
  unfold Display.draw
  simp only [hdrawn, hempty, Option.isNone_none, Bool.true_and]
  apply does_bind hd
  exact does_bind (does_modify hlast) (does_pure _ _)

theorem breaksOff_draw (m : Machine) {x y address height : Int}
    (h : spriteCells m.spriteSource x y address height = c :: cells) (hc : slot? c = none) :
    BreaksOff (draw x y address height) m c :=
  breaksOff_bind (breaksOff_drawRows x y address m h hc) _

/-! The keypad. -/

theorem keypad_setKeypad (m : Machine) (p : Keypad) : (m.setKeypad p).keypad = p := rfl

theorem setKeypad_setKeypad (m : Machine) (p q : Keypad) :
    (m.setKeypad p).setKeypad q = m.setKeypad q := rfl

theorem does_isPressed (m : Machine) (k : Int) : Does (isPressed k) m (m.keypad.isPressed k) m := by
  unfold Keypad.isPressed Keypad.key?
  apply does_ite
  · intro h
    obtain ⟨k, rfl⟩ : ∃ j : Fin 16, k = j := exists_fin h
    have hk : (k : Nat) < m.bare.held.length := by simp [Machine.bare]
    have he : m.bare.held[(k : Nat)] = m.keypad.isHeld k := by simp [Machine.bare, Keypad.isHeld]
    have hkey : (if h : 0 ≤ (k : Int) ∧ (k : Int) < 16 then some (⟨(k : Int).toNat, by omega⟩ : Key)
        else none) = some k := by
      rw [dif_pos h]
      rfl
    rw [hkey, Option.any_some, ← he]
    exact does_bind (does_get m) (does_item hk m)
  · intro h
    rw [dif_neg h]
    exact does_pure _ m

theorem does_putKey (m : Machine) (k : Key) (down : Bool) :
    Does (putKey k.val down) m () (m.setKeypad (m.keypad.put k down)) := by
  have hk : k.val < m.bare.held.length := by simp [Machine.bare]
  apply does_bind (does_get m)
  apply does_bind (does_replaced hk _ m)
  apply does_modify
  simp [Machine.bare, Machine.fault, Machine.setKeypad, Keypad.put, Vector.toList_set]

theorem does_setWaiting (m : Machine) (r : Option (Fin 16)) :
    Does (setWaiting (r.map fun r => (r.val : Int))) m ()
      (m.setKeypad { m.keypad with waiting := r }) := does_modify rfl

def releasedUpTo (p : Keypad) (k : Nat) : Keypad :=
  { p with held := Vector.ofFn fun j : Fin 16 => decide (k ≤ j) && p.isHeld j }

theorem releasedUpTo_zero (p : Keypad) : releasedUpTo p 0 = p := by
  simp [releasedUpTo, Keypad.isHeld]

theorem releasedUpTo_succ (p : Keypad) {k : Nat} (hk : k < 16) :
    (releasedUpTo p k).put ⟨k, hk⟩ false = releasedUpTo p (k + 1) := by
  have h : (Vector.ofFn fun j : Fin 16 => decide (k ≤ j) && p.isHeld j).set k false hk =
      Vector.ofFn fun j : Fin 16 => decide (k + 1 ≤ j) && p.isHeld j := by
    apply Vector.ext
    intro j hj
    by_cases h : k = j
    · subst h
      simp
    · have hle : k ≤ j ↔ k + 1 ≤ j := by omega
      simp [Vector.getElem_set_ne _ _ h, hle]
  simp only [releasedUpTo, Keypad.put, h]

theorem releasedUpTo_all (p : Keypad) : releasedUpTo p 16 = p.releaseAll := by
  have h : (Vector.ofFn fun j : Fin 16 => decide (16 ≤ j.val) && p.isHeld j) =
      Vector.replicate 16 false := by
    apply Vector.ext
    intro j hj
    simp [hj]
  rw [releasedUpTo, h]
  rfl

theorem does_releaseUpTo (m : Machine) {k : Nat} (hk : k ≤ 16) :
    Does (releaseUpTo k) m () (m.setKeypad (releasedUpTo m.keypad k)) := by
  induction k with
  | zero =>
    rw [releasedUpTo_zero]
    exact does_pure _ m
  | succ k ih =>
    have hp := does_putKey (m.setKeypad (releasedUpTo m.keypad k)) ⟨k, by omega⟩ false
    rw [keypad_setKeypad, setKeypad_setKeypad, releasedUpTo_succ] at hp
    exact does_bind (ih (by omega)) hp

theorem does_releaseAll (m : Machine) :
    Does (releaseUpTo 16) m () (m.setKeypad m.keypad.releaseAll) := by
  rw [← releasedUpTo_all]
  exact does_releaseUpTo m (Nat.le_refl 16)

theorem findIdx?_held (p : Keypad) : p.held.toList.findIdx? id = p.firstHeld?.map Fin.val := by
  cases h : p.firstHeld? with
  | none =>
    have hup : ∀ k, ¬ p.isHeld k = true := by
      intro k
      exact List.find?_eq_none.mp h k (List.mem_finRange k)
    rw [Option.map_none, List.findIdx?_eq_none_iff]
    intro b hb
    obtain ⟨k, hk, rfl⟩ := List.getElem_of_mem hb
    simpa [Keypad.isHeld] using hup ⟨k, by simpa using hk⟩
  | some k =>
    obtain ⟨hk, i, hi, hik, hbefore⟩ := List.find?_eq_some_iff_getElem.mp h
    have hik' : i = k := by
      rw [← hik]
      simp
    rw [Option.map_some, List.findIdx?_eq_some_iff_getElem]
    refine ⟨by simp, by simpa [Keypad.isHeld] using hk, ?_⟩
    intro j hj
    have hup := hbefore j (by omega)
    simpa [Keypad.isHeld] using hup

end Bare

end Chip8
