import Chip8.Proofs.Batch
import Chip8.Proofs.Encoding
import Chip8.Proofs.Width

/-! Arithmetic on registers. A byte and a flag make up the whole result, whichever registers the
operands share with each other and with the flag. -/
namespace Chip8

/-! The whole results, from their low byte and their flag. -/
section Whole

theorem whole_add (a b : UInt8) : (a.toNat + b.toNat : Int) =
    256 * (if 255 < a.toNat + b.toNat then 1 else 0 : Nat) + (a + b).toNat := by
  have hmod := UInt8.toNat_add a b
  have ha := a.toNat_lt
  have hb := b.toNat_lt
  split <;> omega

theorem whole_sub (a b : UInt8) : (a.toNat - b.toNat : Int) =
    (a - b).toNat - 256 * (1 - (if b.toNat ≤ a.toNat then 1 else 0 : Nat)) := by
  have hmod := toNat_byte (a.toNat - b.toNat)
  rw [byte_sub] at hmod
  have ha := a.toNat_lt
  have hb := b.toNat_lt
  split <;> omega

theorem whole_half (a : UInt8) :
    (a.toNat : Int) = 2 * (a >>> 1).toNat + (a.toNat % 2 : Nat) := by
  have hhalf := toNat_half a
  omega

theorem whole_double (a : UInt8) :
    (2 * a.toNat : Int) = 256 * (a.toNat / 128 : Nat) + (a <<< 1).toNat := by
  have hmod := toNat_byte (2 * a.toNat)
  rw [byte_double] at hmod
  have ha := a.toNat_lt
  omega

end Whole

/-- What an operation with a flag makes of the registers. The flag `c` is in the last one. The byte
in `x` makes up the result together with it, unless `x` is the last one itself. -/
structure Flagged (before after : Fin 16 → UInt8) (x : Fin 16) (c : Nat)
    (whole : Int → Int → Prop) : Prop where
  flag : (after 15).toNat = c
  whole : x ≠ 15 → whole (after x).toNat c
  others : ∀ q, q ≠ x → q ≠ 15 → after q = before q

/-- What an operation without a flag makes of them. -/
structure Stored (before after : Fin 16 → UInt8) (x : Fin 16) (n : Nat) : Prop where
  value : (after x).toNat = n
  others : ∀ q, q ≠ x → after q = before q

open Word (ofDigits ofPair)

namespace Machine

variable {m r : Machine} {op : AluOp} {x y : Fin 16} {b : UInt8} {n : Nat}

theorem stored_setRegister (m : Machine) (x : Fin 16) (h : b.toNat = n) :
    Stored m.register (m.setRegister x b).register x n where
  value := by rw [register_setRegister, if_pos rfl, h]
  others := by
    intro q hq
    rw [register_setRegister, if_neg hq]

theorem stored_alu (hf : op.flag? (m.register x) (m.register y) = none)
    (h : (op.result (m.register x) (m.register y)).toNat = n) :
    Stored m.register (m.alu op x y).register x n := by
  simp only [alu, hf]
  exact stored_setRegister m x h

/-- The flag is stored over the byte, not the other way round. -/
theorem flagged_alu {p : Prop} [Decidable p] {whole : Int → Int → Prop}
    (hf : op.flag? (m.register x) (m.register y) = some (decide p))
    (hn : (if p then 1 else 0) = n)
    (h : whole (op.result (m.register x) (m.register y)).toNat n) :
    Flagged m.register (m.alu op x y).register x n whole := by
  simp only [alu, hf, setFlag]
  constructor
  · rw [register_setRegister, if_pos rfl, ← hn]
    by_cases hp : p
    · simp [hp]
    · simp [hp]
  · intro hx
    rw [register_setRegister, if_neg hx, register_setRegister, if_pos rfl]
    exact h
  · intro q hq hlast
    rw [register_setRegister, if_neg hlast, register_setRegister, if_neg hq]

theorem step_alu (hr : m.ready? = some r) (h : r.fetch = ofDigits 8 x y op.digit) :
    m.step.2.register = ((r.setPc (r.pc + 2)).alu op x y).register := by
  rw [step_of_spells hr h (.alu op x y)]
  rfl

/-- Two registers, which may be one and the same, are added, subtracted or shifted to a byte and a
flag that together tell the whole result. The flag ends up in the last register even if the byte was
to go there. -/
theorem arithmetic_is_exact (m r : Machine) (hr : m.ready? = some r) (x y : Fin 16) :
    let s := m.step.2
    let a := (r.register x).toNat
    let b := (r.register y).toNat
    ((r.fetch = ofDigits 8 x y 4 →
        Flagged r.register s.register x (if 255 < a + b then 1 else 0) fun n c =>
          (a + b : Int) = 256 * c + n) ∧
      (r.fetch = ofDigits 8 x y 5 →
        Flagged r.register s.register x (if b ≤ a then 1 else 0) fun n c =>
          (a - b : Int) = n - 256 * (1 - c)) ∧
      (r.fetch = ofDigits 8 x y 6 →
        Flagged r.register s.register x (a % 2) fun n c => (a : Int) = 2 * n + c) ∧
      (r.fetch = ofDigits 8 x y 7 →
        Flagged r.register s.register x (if a ≤ b then 1 else 0) fun n c =>
          (b - a : Int) = n - 256 * (1 - c)) ∧
      (r.fetch = ofDigits 8 x y 0xE →
        Flagged r.register s.register x (a / 128) fun n c => (2 * a : Int) = 256 * c + n)) ∧
    ((r.fetch = ofDigits 8 x y 0 → Stored r.register s.register x b) ∧
      (r.fetch = ofDigits 8 x y 1 → Stored r.register s.register x (a ||| b)) ∧
      (r.fetch = ofDigits 8 x y 2 → Stored r.register s.register x (a &&& b)) ∧
      (r.fetch = ofDigits 8 x y 3 → Stored r.register s.register x (a ^^^ b))) ∧
    ∀ p q : Fin 16,
      (r.fetch = ofDigits 6 x p q → Stored r.register s.register x (16 * p + q)) ∧
      (r.fetch = ofDigits 7 x p q →
        Stored r.register s.register x ((a + (16 * p + q)) % 256)) := by
  intro s a b
  have halu : ∀ op : AluOp, r.fetch = ofDigits 8 x y op.digit →
      s.register = ((r.setPc (r.pc + 2)).alu op x y).register := fun _ h => step_alu hr h
  refine ⟨⟨fun h => ?_, fun h => ?_, fun h => ?_, fun h => ?_, fun h => ?_⟩,
    ⟨fun h => ?_, fun h => ?_, fun h => ?_, fun h => ?_⟩, fun p q => ⟨fun h => ?_, fun h => ?_⟩⟩
  · rw [halu .add h]
    exact flagged_alu (m := r.setPc (r.pc + 2)) rfl rfl (whole_add _ _)
  · rw [halu .sub h]
    exact flagged_alu (m := r.setPc (r.pc + 2)) rfl (if_congr UInt8.le_iff_toNat_le rfl rfl)
      (whole_sub _ _)
  · have hlow : (if a % 2 = 1 then 1 else 0) = a % 2 := by split <;> omega
    rw [halu .shiftRight h]
    exact flagged_alu (m := r.setPc (r.pc + 2)) rfl hlow (whole_half _)
  · rw [halu .subFrom h]
    exact flagged_alu (m := r.setPc (r.pc + 2)) rfl (if_congr UInt8.le_iff_toNat_le rfl rfl)
      (whole_sub _ _)
  · have ha : a < 256 := (r.register x).toNat_lt
    have hhigh : (if 128 ≤ a then 1 else 0) = a / 128 := by split <;> omega
    rw [halu .shiftLeft h]
    exact flagged_alu (m := r.setPc (r.pc + 2)) rfl hhigh (whole_double _)
  · rw [halu .copy h]
    exact stored_alu (m := r.setPc (r.pc + 2)) rfl rfl
  · rw [halu .or h]
    exact stored_alu (m := r.setPc (r.pc + 2)) rfl (UInt8.toNat_or _ _)
  · rw [halu .and h]
    exact stored_alu (m := r.setPc (r.pc + 2)) rfl (UInt8.toNat_and _ _)
  · rw [halu .xor h]
    exact stored_alu (m := r.setPc (r.pc + 2)) rfl (UInt8.toNat_xor _ _)
  · change Stored _ m.step.2.register x _
    rw [step_of_spells hr h (.setByte x p q)]
    exact stored_setRegister (r.setPc (r.pc + 2)) x (Word.toNat_ofPair p q)
  · change Stored _ m.step.2.register x _
    rw [step_of_spells hr h (.addByte x p q)]
    have hsum := UInt8.toNat_add (r.register x) (ofPair p q)
    rw [Word.toNat_ofPair] at hsum
    exact stored_setRegister (r.setPc (r.pc + 2)) x hsum

/-- The last register is added to itself, and what it then holds is taken from another one. -/
def aliasedSum : List Operation :=
  [.poke 0x200 0x8F, .poke 0x201 0xF4, .poke 0x202 0x81, .poke 0x203 0xF5, .setRegister 15 0x90,
    .setRegister 1 1]

set_option maxRecDepth 100000 in
/-- The sum carries, and the carry stands in place of it. To take it from one leaves nothing, and
nothing is borrowed. -/
theorem carry_outlasts_its_sum :
    let m := (initial {} (.listed [0] 0)).after aliasedSum
    let n := m.step.2
    (m.ready? = some m ∧ m.fetch = ofDigits 8 15 15 4 ∧ (m.register 15).toNat = 0x90) ∧
      ((n.register 15).toNat = 1 ∧ n.register 1 = m.register 1) ∧
      (n.ready? = some n ∧ n.fetch = ofDigits 8 1 15 5) ∧
      (n.step.2.register 15).toNat = 1 ∧
      (1 - 1 : Int) = (n.step.2.register 1).toNat - 256 * (1 - (1 : Nat)) := by
  intro m n
  have hm : (m.fault = none ∧ m.keypad.waiting = none) ∧ m.fetch = ofDigits 8 15 15 4 ∧
      (m.register 15).toNat = 0x90 ∧ (m.register 1).toNat = 1 := by decide +kernel
  have hn : (n.fault = none ∧ n.keypad.waiting = none) ∧ n.fetch = ofDigits 8 1 15 5 := by
    decide +kernel
  obtain ⟨hrunning, hsum, hlast, hone⟩ := hm
  obtain ⟨hrunning', hrest⟩ := hn
  have hready := ready?_of_running hrunning.1 hrunning.2
  have hready' := ready?_of_running hrunning'.1 hrunning'.2
  have hcarry := (arithmetic_is_exact m m hready 15 15).1.1 hsum
  have hborrow := (arithmetic_is_exact n n hready' 1 15).1.2.1 hrest
  have hflag : (n.register 15).toNat = 1 := by
    have h := hcarry.flag
    rw [hlast] at h
    exact h
  have hkept : n.register 1 = m.register 1 := hcarry.others 1 (by decide) (by decide)
  rw [hkept, hone, hflag] at hborrow
  exact ⟨⟨hready, hsum, hlast⟩, ⟨hflag, hkept⟩, ⟨hready', hrest⟩, hborrow.flag,
    hborrow.whole (by decide)⟩

end Machine

end Chip8
