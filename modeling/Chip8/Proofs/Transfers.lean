import Chip8.Proofs.Batch
import Chip8.Proofs.Encoding
import Chip8.Proofs.Width
import Mathlib.Data.Fin.VecNotation

/-! Transfers between the registers and the store. Addresses wrap at sixteen bits and the store ends
long before: what is put outside of it is lost, and what is read there is zero. -/
namespace Chip8

/-- The `k`-th address from `a` on, at sixteen bits. -/
def wrapped (a : UInt16) (k : Nat) : Nat := (a.toNat + k) % 65536

theorem wrapped_zero (a : UInt16) : wrapped a 0 = a.toNat := Nat.mod_eq_of_lt a.toNat_lt

theorem wrapped_succ (a : UInt16) (k : Nat) : wrapped (a + 1) k = wrapped a (k + 1) := by
  have hnext := UInt16.toNat_add a 1
  have hone : (1 : UInt16).toNat = 1 := rfl
  simp only [wrapped]
  omega

/-- No two bytes of a transfer share an address. -/
theorem wrapped_inj {a : UInt16} {j k : Nat} (hj : j < 65536) (hk : k < 65536)
    (h : wrapped a j = wrapped a k) : j = k := by
  simp only [wrapped] at h
  omega

theorem toNat_add_ofNat (a : UInt16) (k : Nat) :
    ((a + UInt16.ofNat k).toNat : Int) = wrapped a k := (toNat_offset a k).symm

namespace Memory

variable {s t : Memory} {a : UInt16} {n : Nat} {bytes : Fin n → UInt8}

theorem ext_read (h : ∀ c : Int, s.read c = t.read c) : s = t := by
  obtain ⟨bs⟩ := s
  obtain ⟨cs⟩ := t
  congr 1
  apply Vector.ext
  intro k hk
  have hread := h k
  simpa [read, hk] using hread

/-- The bytes went to the addresses from `a` on, as far as these lie in the store. Nothing else
changed. -/
structure Filled (s t : Memory) (a : UInt16) (bytes : Fin n → UInt8) : Prop where
  inside : ∀ k : Fin n, wrapped a k < 4096 → t.read (wrapped a k) = bytes k
  others : ∀ c : Int, (∀ k : Fin n, c ≠ wrapped a k) → t.read c = s.read c

/-- The first byte is not overwritten by those behind it, as they do not come round to its
address. -/
theorem filled_storeAt (s : Memory) (a : UInt16) (hn : n ≤ 65536) (bytes : Fin n → UInt8) :
    Filled s (Machine.storeAt s a (List.ofFn bytes)) a bytes := by
  induction n generalizing s a with
  | zero => exact ⟨fun k => k.elim0, fun _ _ => rfl⟩
  | succ n ih =>
    have hrest := ih (s.write a.toNat (bytes 0)) (a + 1) (by omega) (bytes ·.succ)
    rw [List.ofFn_succ, Machine.storeAt]
    constructor
    · intro k hin
      cases k using Fin.cases with
      | zero =>
        have hnotAgain : ∀ k : Fin n, (a.toNat : Int) ≠ wrapped (a + 1) k := by
          intro k he
          rw [← wrapped_zero, wrapped_succ] at he
          have hzero := wrapped_inj (by omega) (by omega) (Int.ofNat_inj.mp he)
          omega
        rw [Fin.val_zero, wrapped_zero] at hin ⊢
        rw [hrest.others _ hnotAgain]
        exact read_write_same s _ (by omega)
      | succ k =>
        rw [Fin.val_succ, ← wrapped_succ] at hin ⊢
        exact hrest.inside k hin
    · intro c hc
      have hfirst := hc 0
      rw [Fin.val_zero, wrapped_zero] at hfirst
      rw [hrest.others c, read_write_other s _ hfirst.symm]
      intro k
      rw [wrapped_succ]
      exact hc k.succ

/-- Bytes that are put back where they were read leave nothing changed. -/
theorem Filled.eq_of_read (h : Filled s t a bytes)
    (hb : ∀ k : Fin n, bytes k = s.read (wrapped a k)) : t = s := by
  apply ext_read
  intro c
  by_cases hc : ∀ k : Fin n, c ≠ wrapped a k
  · exact h.others c hc
  · obtain ⟨k, hk⟩ := not_forall_not.mp hc
    subst hk
    by_cases hin : wrapped a k < 4096
    · rw [h.inside k hin, hb]
    · rw [read_outside t (by omega), read_outside s (by omega)]

theorem read_wrapped (s : Memory) (a : UInt16) (k : Nat) :
    s.read (wrapped a k) = if wrapped a k < 4096 then s.read (wrapped a k) else 0 := by
  split
  · rfl
  · exact read_outside s (by omega)

theorem Filled.read (h : Filled s t a bytes) (k : Fin n) :
    t.read (wrapped a k) = if wrapped a k < 4096 then bytes k else 0 := by
  rw [read_wrapped]
  split
  · exact h.inside k ‹_›
  · rfl

end Memory

open Word (ofDigits)

namespace Machine

variable {m r : Machine} {x : Fin 16}

/-- The first registers, up to and with `x`. -/
def upTo (m : Machine) (x : Fin 16) (k : Fin (x + 1)) : UInt8 := m.register ⟨k, by omega⟩

theorem take_registers (m : Machine) (x : Fin 16) :
    m.v.toList.take (x + 1) = List.ofFn (m.upTo x) := by
  apply List.ext_getElem
  · rw [List.length_take, List.length_ofFn, Vector.length_toList]
    omega
  · intro k _ _
    rw [List.getElem_take, List.getElem_ofFn, Vector.getElem_toList]
    rfl

theorem filled_save (m : Machine) (x : Fin 16) :
    m.memory.Filled (m.save x).memory m.i (m.upTo x) := by
  simp only [save, setMemory, take_registers]
  exact m.memory.filled_storeAt m.i (by omega) _

theorem digits_eq (b : UInt8) : digits b = List.ofFn ![b / 100, b / 10 % 10, b % 10] := by
  simp [digits]

theorem filled_decimal (m : Machine) (x : Fin 16) :
    m.memory.Filled (m.decimal x).memory m.i
      ![m.register x / 100, m.register x / 10 % 10, m.register x % 10] := by
  simp only [decimal, setMemory, digits_eq]
  exact m.memory.filled_storeAt m.i (by omega) _

theorem digits_spell (b : UInt8) :
    (b / 100 ≤ 9 ∧ b / 10 % 10 ≤ 9 ∧ b % 10 ≤ 9) ∧
      100 * (b / 100).toNat + 10 * (b / 10 % 10).toNat + (b % 10).toNat = b.toNat := by
  have hb := b.toNat_lt
  have hhundreds : (b / 100).toNat = b.toNat / 100 := UInt8.toNat_div b 100
  have htens : (b / 10 % 10).toNat = b.toNat / 10 % 10 := by
    rw [UInt8.toNat_mod, UInt8.toNat_div]
    rfl
  have hones : (b % 10).toNat = b.toNat % 10 := UInt8.toNat_mod b 10
  have hnine : (9 : UInt8).toNat = 9 := rfl
  simp only [UInt8.le_iff_toNat_le]
  omega

theorem restore_memory (m : Machine) (x : Fin 16) : (m.restore x).memory = m.memory := by
  simp only [restore]

theorem restore_index (m : Machine) (x : Fin 16) : (m.restore x).i = m.i := by
  simp only [restore]

theorem register_restore (m : Machine) (x k : Fin 16) : (m.restore x).register k =
    if k ≤ x then m.memory.read (wrapped m.i k) else m.register k := by
  have hk : (m.restore x).register k = m.restored x k := by
    simp [restore, register]
  rw [hk, restored, toNat_add_ofNat]

/-- A register comes back if its byte was in the store. -/
theorem register_restore_save (m : Machine) {x k : Fin 16} (hk : k ≤ x) :
    ((m.save x).restore x).register k = if wrapped m.i k < 4096 then m.register k else 0 := by
  rw [register_restore, if_pos hk]
  exact (m.filled_save x).read ⟨k, by omega⟩

/-- Registers that were read from outside the store are zero, and not stored again. -/
theorem memory_save_restore (m : Machine) (x : Fin 16) :
    ((m.restore x).save x).memory = m.memory := by
  have hfilled := (m.restore x).filled_save x
  rw [restore_memory, restore_index] at hfilled
  apply hfilled.eq_of_read
  intro k
  have hk : k ≤ x.val := Nat.le_of_lt_succ k.isLt
  exact (register_restore m x ⟨k, by omega⟩).trans (if_pos hk)

theorem ready?_memory (h : m.ready? = some r) : r.memory = m.memory := by
  obtain ⟨v, p, rfl⟩ := ready?_eq_some h
  rfl

theorem ready?_index (h : m.ready? = some r) : r.i = m.i := by
  obtain ⟨v, p, rfl⟩ := ready?_eq_some h
  rfl

/-- What a transfer reads and writes at every address, those included that lie outside the store or
come round to its start. Put together, transfers both ways with the same registers give back what
the store could hold. -/
theorem transfers_at_every_address (x : Fin 16) :
    (∀ m r : Machine, m.ready? = some r →
      let s := m.step.2
      (r.fetch = ofDigits 0xF x 5 5 → m.memory.Filled s.memory m.i (r.upTo x) ∧ s.i = m.i) ∧
        (r.fetch = ofDigits 0xF x 3 3 → ∃ a b c : UInt8,
          ((a ≤ 9 ∧ b ≤ 9 ∧ c ≤ 9) ∧
            100 * a.toNat + 10 * b.toNat + c.toNat = (r.register x).toNat) ∧
          m.memory.Filled s.memory m.i ![a, b, c] ∧ s.i = m.i) ∧
        (r.fetch = ofDigits 0xF x 6 5 →
          (∀ k, s.register k =
            if k ≤ x then
              if wrapped m.i k < 4096 then m.memory.read (wrapped m.i k) else 0
            else r.register k) ∧ s.i = m.i)) ∧
      ∀ (m : Machine) (p q : UInt16),
        let saved (m : Machine) := m.executeWord (ofDigits 0xF x 5 5) p
        let restored (m : Machine) := m.executeWord (ofDigits 0xF x 6 5) q
        (∀ k ≤ x, (restored (saved m)).register k =
          if wrapped m.i k < 4096 then m.register k else 0) ∧
        (saved (restored m)).memory = m.memory := by
  refine ⟨fun m r hr => ?_, fun m p q => ?_⟩
  · rw [← ready?_memory hr, ← ready?_index hr]
    refine ⟨fun h => ?_, fun h => ?_, fun h => ?_⟩
    · have hfilled := (r.setPc (r.pc + 2)).filled_save x
      rw [step_of_spells hr h (.save x)]
      exact ⟨hfilled, rfl⟩
    · have hspell := digits_spell (r.register x)
      have hfilled := (r.setPc (r.pc + 2)).filled_decimal x
      rw [step_of_spells hr h (.decimal x)]
      exact ⟨_, _, _, hspell, hfilled, rfl⟩
    · have hregister := (r.setPc (r.pc + 2)).register_restore x
      have hindex := (r.setPc (r.pc + 2)).restore_index x
      rw [step_of_spells hr h (.restore x)]
      refine ⟨fun k => ?_, hindex⟩
      rw [← r.memory.read_wrapped]
      exact hregister k
  · intro saved restored
    simp only [saved, restored, executeWord_of_spells (.save x), executeWord_of_spells (.restore x)]
    exact ⟨fun k hk => register_restore_save m hk, memory_save_restore m x⟩

/-- Four registers are saved from two addresses before the last one, and restored from there. -/
def savedAcross : List Operation :=
  [.poke 0x200 0xF3, .poke 0x201 0x55, .poke 0x202 0xF3, .poke 0x203 0x65, .setIndex 0xFFFE,
    .setRegister 0 5, .setRegister 2 7]

set_option maxRecDepth 100000 in
/-- The first two are lost. The other two stand where the glyph of zero was, and come back. -/
theorem saved_registers_come_round :
    let m := (initial {} (.listed [0] 0)).after savedAcross
    let n := m.step.2
    (m.ready? = some m ∧ m.fetch = ofDigits 0xF 3 5 5 ∧ m.i = 0xFFFE) ∧
      (n.memory.read 0 = m.register 2 ∧ n.memory.read 2 = m.memory.read 2 ∧ n.i = m.i) ∧
      (n.ready? = some n ∧ n.fetch = ofDigits 0xF 3 6 5) ∧
      n.step.2.register 0 = 0 ∧ n.step.2.register 2 = m.register 2 := by
  intro m n
  have hm : (m.fault = none ∧ m.keypad.waiting = none) ∧ m.fetch = ofDigits 0xF 3 5 5 ∧
      m.i = 0xFFFE := by decide +kernel
  have hn : (n.fault = none ∧ n.keypad.waiting = none) ∧ n.fetch = ofDigits 0xF 3 6 5 := by
    decide +kernel
  obtain ⟨hrunning, hsave, hindex⟩ := hm
  obtain ⟨hrunning', hrestore⟩ := hn
  have hready := ready?_of_running hrunning.1 hrunning.2
  have hready' := ready?_of_running hrunning'.1 hrunning'.2
  obtain ⟨hfilled, hi⟩ := ((transfers_at_every_address 3).1 m m hready).1 hsave
  obtain ⟨hregister, _⟩ := ((transfers_at_every_address 3).1 n n hready').2.2 hrestore
  have hlost : wrapped n.i (0 : Fin 16) = 0xFFFE := by
    rw [hi, hindex]
    rfl
  have hfont : wrapped n.i (2 : Fin 16) = 0 := by
    rw [hi, hindex]
    rfl
  have hput : n.memory.read 0 = m.register 2 := by
    have hin := hfilled.inside 2
    rw [hindex] at hin
    exact hin (by decide)
  have hkept : n.memory.read 2 = m.memory.read 2 := by
    apply hfilled.others
    rw [hindex]
    decide
  have hzero := hregister 0
  have htwo := hregister 2
  rw [if_pos (by decide), hlost] at hzero
  rw [if_pos (by decide), hfont] at htwo
  exact ⟨⟨hready, hsave, hindex⟩, ⟨hput, hkept, hi⟩, ⟨hready', hrestore⟩, hzero, htwo.trans hput⟩

end Machine

end Chip8
