import Chip8.Proofs.Bare.Devices
import Mathlib.Tactic.IntervalCases

/-! Every instruction does on bare numbers what it does on bytes and words. -/
namespace Chip8.Bare

variable {m : Machine} {opcode address : UInt16} {c d : Bool} {n : Int}

/-! The parts of a word. -/

theorem word_family (w : UInt16) : (w.toNat : Int) / 4096 = (Word.family w : Nat) := by
  simp [Word.family]

theorem word_x (w : UInt16) : (w.toNat : Int) / 256 % 16 = (Word.x w).val := by
  simp [Word.x]

theorem word_y (w : UInt16) : (w.toNat : Int) / 16 % 16 = (Word.y w).val := by
  simp [Word.y]

theorem word_n (w : UInt16) : (w.toNat : Int) % 16 = (Word.n w).val := by
  simp [Word.n]

theorem word_byte (w : UInt16) : (w.toNat : Int) % 256 = (Word.byte w).toNat := by
  simp [Word.byte]

theorem word_address (w : UInt16) : (w.toNat : Int) % 4096 = (Word.address w).toNat := by
  have := w.toNat_lt
  simp [Word.address]
  omega

/-- What a decoded word does. -/
def executed (m : Machine) (opcode address : UInt16) : Option Instruction → Machine
  | some i => m.execute opcode address i
  | none => m.halt ⟨.unrecognizedOpcode, opcode, address⟩

theorem executeWord_eq (m : Machine) (opcode address : UInt16) :
    m.executeWord opcode address = executed m opcode address (Instruction.decode opcode) := by
  unfold Machine.executeWord
  cases Instruction.decode opcode <;> rfl

theorem does_skipIf (m : Machine) (h : c = d) :
    Does (skipIf c) m () (if d then m.skipNext else m) := by
  subst h
  cases c with
  | false => exact does_pure _ m
  | true => exact does_bind (does_get m) (does_setPc m (address_add m.pc 2))

theorem does_setFlag (m : Machine) (h : n = bit d) :
    Does (putRegister 15 n) m () (m.setFlag d) := by
  apply does_putRegister m 15
  rw [h]
  cases d with
  | false => rfl
  | true => rfl

theorem bit_carry (a b : UInt8) :
    bit (255 < (a.toNat + b.toNat : Int)) = bit (decide (255 < a.toNat + b.toNat)) := by
  congr 1
  simp only [decide_eq_decide]
  omega

theorem bit_low (a : UInt8) : (a.toNat % 2 : Int) = bit (decide (a.toNat % 2 = 1)) := by
  simp only [bit, decide_eq_true_eq]
  split <;> omega

theorem bit_high (a : UInt8) : (a.toNat / 128 % 2 : Int) = bit (decide (128 ≤ a.toNat)) := by
  have := a.toNat_lt
  simp only [bit, decide_eq_true_eq]
  split <;> omega

/-- Between two registers. A digit without an operation halts the machine. -/
theorem does_executeAlu (m : Machine) (opcode address : UInt16) (x y digit : Fin 16) :
    Does (executeAlu opcode.toNat address.toNat x.val y.val digit.val) m ()
      (executed m opcode address ((AluOp.ofDigit? digit).map fun op => .alu op x y)) := by
  apply does_bind (does_register m x)
  apply does_bind (does_register m y)
  obtain ⟨k, hk⟩ := digit
  -- Digit by digit. From 0x8 to 0xD they name no operation.
  interval_cases k
  · exact does_putRegister m x rfl
  · exact does_putRegister m x (toNat_or _ _)
  · exact does_putRegister m x (toNat_and _ _)
  · exact does_putRegister m x (toNat_xor _ _)
  · apply does_bind (does_setRegister m x (byte_add _ _))
    exact does_setFlag _ (bit_carry _ _)
  · apply does_bind (does_setRegister m x (byte_sub _ _))
    apply does_setFlag
    simp only [toNat_le]
  · apply does_bind (does_putRegister m x (toNat_half _))
    exact does_setFlag _ (bit_low _)
  · apply does_bind (does_setRegister m x (byte_sub _ _))
    apply does_setFlag
    simp only [toNat_le]
  iterate 6 exact does_halt m .unrecognizedOpcode opcode address
  · apply does_bind (does_setRegister m x (byte_double _))
    exact does_setFlag _ (bit_high _)
  · exact does_halt m .unrecognizedOpcode opcode address

/-! Memory transfers. -/

theorem storeAt_append (s : Memory) (a : UInt16) (bs cs : List UInt8) :
    Machine.storeAt s a (bs ++ cs) =
      Machine.storeAt (Machine.storeAt s a bs) (a + UInt16.ofNat bs.length) cs := by
  induction bs generalizing s a with
  | nil => simp [Machine.storeAt]
  | cons b bs ih =>
    simp only [List.cons_append, Machine.storeAt, ih, List.length_cons]
    rw [ofNat_succ, UInt16.add_assoc]

theorem bare_offset (m : Machine) (k : Nat) :
    (m.bare.i + k) % 65536 = ((m.i + UInt16.ofNat k).toNat : Int) := toNat_offset m.i k

theorem does_store (m : Machine) (r : Fin 16) :
    Does (do write (((← get).i + r.val) % 65536) (← register r.val)) m ()
      (m.setMemory (m.memory.write (m.i + UInt16.ofNat r).toNat (m.register r))) := by
  apply does_bind (does_get m)
  apply does_bind (does_register m r)
  rw [bare_offset]
  exact does_write m _ (byte_toNat (m.register r))

theorem does_saveUpTo (m : Machine) {k : Nat} (hk : k ≤ 16) :
    Does (saveUpTo k) m () (m.setMemory (Machine.storeAt m.memory m.i (m.v.toList.take k))) := by
  induction k with
  | zero => exact does_pure _ m
  | succ k ih =>
    have htake : m.v.toList.take (k + 1) = m.v.toList.take k ++ [m.v[k]] := by
      rw [List.take_succ_eq_append_getElem (by simp; omega), Vector.getElem_toList]
    have hlength : (m.v.toList.take k).length = k := by simp; omega
    rw [htake, storeAt_append, hlength]
    exact does_bind (ih (by omega)) (does_store _ ⟨k, by omega⟩)

theorem does_fetch (m : Machine) (r : Fin 16) :
    Does (do putRegister r.val (← read (((← get).i + r.val) % 65536))) m ()
      (m.setRegister r (m.memory.read (m.i + UInt16.ofNat r).toNat)) := by
  apply does_bind (does_get m)
  rw [bare_offset]
  exact does_bind (does_read m _) (does_putRegister m r rfl)

def restoredUpTo (m : Machine) (k : Nat) : Vector UInt8 16 :=
  Vector.ofFn fun r : Fin 16 =>
    if r.val < k then m.memory.read (m.i + UInt16.ofNat r).toNat else m.register r

theorem restoredUpTo_zero (m : Machine) : restoredUpTo m 0 = m.v := by
  simp [restoredUpTo, Machine.register]

theorem restoredUpTo_succ (m : Machine) {k : Nat} (hk : k < 16) :
    (restoredUpTo m k).set k (m.memory.read (m.i + UInt16.ofNat k).toNat) =
      restoredUpTo m (k + 1) := by
  apply Vector.ext
  intro j hj
  by_cases h : k = j
  · subst h
    simp [restoredUpTo]
  · have hlt : j < k ↔ j < k + 1 := by omega
    simp [restoredUpTo, Vector.getElem_set_ne _ _ h, hlt]

theorem does_restoreUpTo (m : Machine) {k : Nat} (hk : k ≤ 16) :
    Does (restoreUpTo k) m () { m with v := restoredUpTo m k } := by
  induction k with
  | zero =>
    rw [restoredUpTo_zero]
    exact does_pure _ m
  | succ k ih =>
    rw [← restoredUpTo_succ m (by omega)]
    exact does_bind (ih (by omega)) (does_fetch _ ⟨k, by omega⟩)

theorem restore_eq (m : Machine) (x : Fin 16) :
    m.restore x = { m with v := restoredUpTo m (x + 1) } := by
  have h : m.restored x = fun r : Fin 16 =>
      if r.val < x.val + 1 then m.memory.read (m.i + UInt16.ofNat r).toNat else m.register r := by
    funext r
    simp only [Machine.restored, Nat.lt_succ_iff, Fin.le_def]
  rw [Machine.restore, h, restoredUpTo]

theorem does_saveDecimal (m : Machine) (x : Fin 16) :
    Does (saveDecimal (m.register x).toNat) m () (m.decimal x) := by
  have hundreds : UInt8.ofInt ((m.register x).toNat / 100) = m.register x / 100 :=
    byte_eq (by simp)
  have htens : UInt8.ofInt ((m.register x).toNat / 10 % 10) = m.register x / 10 % 10 :=
    byte_eq (by simp)
  have hones : UInt8.ofInt ((m.register x).toNat % 10) = m.register x % 10 :=
    byte_eq (by simp)
  have h1 : (m.bare.i + 1) % 65536 = ((m.i + 1).toNat : Int) := bare_offset m 1
  have h2 : (m.bare.i + 2) % 65536 = ((m.i + 1 + 1).toNat : Int) := by
    rw [UInt16.add_assoc]
    exact bare_offset m 2
  apply does_bind (does_get m)
  simp only [h1, h2]
  apply does_bind (does_write m _ hundreds)
  apply does_bind (does_write _ _ htens)
  exact does_write _ _ hones

/-! The rest, instruction by instruction. -/

theorem does_executeMisc (m : Machine) (opcode address : UInt16) (x : Fin 16) (digits : Nat) :
    Does (executeMisc opcode.toNat address.toNat x.val digits) m ()
      (executed m opcode address (Instruction.ofMisc? x digits)) := by
  unfold Instruction.ofMisc?
  split
  · exact does_bind (does_get m) (does_putRegister m x rfl)
  · exact does_setWaiting m (some x)
  · exact does_bind (does_register m x) (does_modify rfl)
  · exact does_bind (does_register m x) (does_modify rfl)
  · apply does_bind (does_get m)
    apply does_bind (does_register m x)
    apply does_setIndex m
    rw [← address_byte]
    exact address_add m.i _
  · apply does_bind (does_register m x)
    exact does_setIndex m (address_glyph (m.register x))
  · exact does_bind (does_register m x) (does_saveDecimal m x)
  · exact does_saveUpTo m x.isLt
  · rw [executed, Machine.execute, restore_eq]
    exact does_restoreUpTo m x.isLt
  · unfold executeMisc
    split
    -- None of the digits that name an instruction is left.
    iterate 9
      rename_i he
      norm_cast at he
    exact does_halt m .unrecognizedOpcode opcode address

theorem does_ret (m : Machine) (opcode address : UInt16) :
    Does (ret opcode.toNat address.toNat) m () (m.execute opcode address .ret) := by
  unfold Machine.execute
  cases h : m.stack.pop? with
  | some r =>
    obtain ⟨target, rest⟩ := r
    apply does_bind (does_pop_some h _ _)
    exact does_setPc _ (address_toNat target)
  | none =>
    apply does_bind (does_pop_none h opcode address)
    exact does_pure _ _

/-- In a machine that is running, only the overflow itself can stand in the way of the jump. -/
theorem does_call (hm : m.fault = none) (opcode address target : UInt16) :
    Does (call opcode.toNat address.toNat target.toNat) m ()
      (m.execute opcode address (.call target)) := by
  have hpush := does_push m m.pc opcode address
  have hjump : ∀ r : Machine, r.fault = none → Does (do if (← get).fault.isNone then
      setPc target.toNat) r () (r.setPc target) := by
    intro r hr
    apply does_bind (does_get r)
    rw [if_pos (by simp [Machine.bare, hr])]
    exact does_setPc r (address_toNat target)
  simp only [Machine.execute]
  apply does_bind (does_get m)
  cases h : m.stack.push? m.pc with
  | some pushed =>
    rw [h] at hpush
    exact does_bind hpush (hjump _ hm)
  | none =>
    rw [h] at hpush
    by_cases hs : m.config.strict = true
    · simp only [Machine.stackFault, if_pos hs] at hpush ⊢
      apply does_bind hpush
      apply does_bind (does_get _)
      rw [if_neg (by simp [Machine.bare, m.fault_halt])]
      exact does_pure _ _
    · simp only [Machine.stackFault, if_neg hs] at hpush ⊢
      exact does_bind hpush (hjump m hm)

theorem does_random (m : Machine) (x : Fin 16) (mask : UInt8) :
    Does (random x.val mask.toNat) m () (m.random x mask) := by
  have hb : (mask.toNat : Int).land m.source.draw.1.toNat =
      ((m.source.draw.1 &&& mask).toNat : Int) := by
    rw [UInt8.and_comm, toNat_and]
  have hs : ({ m.bare with source := m.source.draw.2 } : Bare) =
      (m.setSource m.source.draw.2).bare := rfl
  apply does_bind (does_get m)
  apply does_bind (does_modify hs)
  exact does_putRegister _ x hb

theorem does_drawInstruction (m : Machine) (x y height : Fin 16) :
    Does (do
      let collided ← draw (← register x.val) (← register y.val) (← get).i height.val
      putRegister 15 (bit collided)) m () (m.draw x y height) := by
  apply does_bind (does_register m x)
  apply does_bind (does_register m y)
  apply does_bind (does_get m)
  apply does_bind (does_draw m (low_of_nonneg (by omega) (by omega)))
  exact does_setFlag _ rfl

/-- Words of one family are told apart by a test. -/
theorem does_told {p q : Prop} [Decidable p] [Decidable q] {act act' : Act Unit}
    {i j : Option Instruction} (hpq : p ↔ q) (h : Does act m () (executed m opcode address i))
    (h' : Does act' m () (executed m opcode address j)) :
    Does (if p then act else act') m () (executed m opcode address (if q then i else j)) := by
  by_cases hq : q
  · rw [if_pos hq, if_pos (hpq.mpr hq)]
    exact h
  · rw [if_neg hq, if_neg (fun hp => hq (hpq.mp hp))]
    exact h'

theorem does_executeWord (hm : m.fault = none) (w address : UInt16) :
    Does (executeWord w.toNat address.toNat) m () (m.executeWord w address) := by
  have hlt : Word.family w < 16 := by
    have := w.toNat_lt
    simp only [Word.family]
    omega
  have hzero : ((Word.n w).val : Int) = 0 ↔ Word.n w = 0 := by
    rw [Fin.ext_iff]
    exact Int.natCast_eq_zero
  have hhalt := does_halt m .unrecognizedOpcode w address
  unfold executeWord
  simp only [word_family, word_x, word_y, word_n, word_byte, word_address]
  rw [executeWord_eq]
  unfold Instruction.decode
  generalize Word.family w = family at hlt
  -- Family by family, from 0x0 to 0xF.
  interval_cases family
  · have hword : ∀ b : UInt16, (w.toNat : Int) = b.toNat ↔ w = b := by
      intro b
      rw [Int.ofNat_inj, UInt16.toNat_inj]
    apply does_told (hword 0x00E0) (does_clear m)
    exact does_told (hword 0x00EE) (does_ret m w address) hhalt
  · exact does_setPc m (address_toNat _)
  · exact does_call hm w address _
  · apply does_bind (does_register m _)
    exact does_skipIf m (toNat_beq _ _)
  · apply does_bind (does_register m _)
    exact does_skipIf m (toNat_bne _ _)
  · apply does_told hzero _ hhalt
    apply does_bind (does_register m _)
    apply does_bind (does_register m _)
    exact does_skipIf m (toNat_beq _ _)
  · exact does_putRegister m _ rfl
  · apply does_bind (does_register m _)
    exact does_setRegister m _ (byte_add _ _)
  · exact does_executeAlu m w address _ _ _
  · apply does_told hzero _ hhalt
    apply does_bind (does_register m _)
    apply does_bind (does_register m _)
    exact does_skipIf m (toNat_bne _ _)
  · exact does_setIndex m (address_toNat _)
  · apply does_bind (does_register m 0)
    apply does_setPc m
    rw [← address_byte]
    exact address_add _ _
  · exact does_random m _ _
  · exact does_drawInstruction m _ _ _
  · have hlow : ∀ b : UInt8, ((Word.byte w).toNat : Int) = b.toNat ↔ Word.byte w = b := by
      intro b
      rw [Int.ofNat_inj, UInt8.toNat_inj]
    apply does_told (hlow 0x9E)
    · apply does_bind (does_register m _)
      exact does_bind (does_isPressed m _) (does_skipIf m rfl)
    · apply does_told (hlow 0xA1) _ hhalt
      apply does_bind (does_register m _)
      exact does_bind (does_isPressed m _) (does_skipIf m rfl)
  · have hdigits : (Word.byte w).toNat = w.toNat % 256 := by simp [Word.byte]
    rw [← hdigits]
    exact does_executeMisc m w address _ _

end Chip8.Bare
