import Chip8.Proofs.Confinement
import Chip8.Proofs.Encoding
import Chip8.Proofs.Keys

/-! Where each word leads. Only jumps, calls, returns and skips lead anywhere but to the next
word. -/
namespace Chip8.Machine

open Word (ofDigits ofPair)

variable {m r : Machine} {w v address : UInt16} {t : Nat} {condition other : Skip}

/-- The words that jump, and the places they jump to. -/
inductive JumpsTo (m : Machine) : UInt16 → Nat → Prop
  | jump (b c d : Fin 16) : JumpsTo m (ofDigits 1 b c d) (256 * b + 16 * c + d)
  | call (b c d : Fin 16) (h : ¬ (m.config.strict = true ∧ m.stack.live.length = 16)) :
      JumpsTo m (ofDigits 2 b c d) (256 * b + 16 * c + d)
  | jumpOffset (b c d : Fin 16) :
      JumpsTo m (ofDigits 0xB b c d) (256 * b + 16 * c + d + (m.register 0).toNat)
  | ret (calls : List UInt16) (a : UInt16) (h : m.stack.live = calls ++ [a]) :
      JumpsTo m (ofDigits 0 0 0xE 0xE) a.toNat

/-- The words that skip the next one. -/
inductive Skips (m : Machine) : UInt16 → Prop
  | equalByte (x c d : Fin 16) (h : (m.register x).toNat = 16 * c + d) :
      Skips m (ofDigits 3 x c d)
  | differByte (x c d : Fin 16) (h : (m.register x).toNat ≠ 16 * c + d) :
      Skips m (ofDigits 4 x c d)
  | equal (x y : Fin 16) (h : m.register x = m.register y) : Skips m (ofDigits 5 x y 0)
  | differ (x y : Fin 16) (h : m.register x ≠ m.register y) : Skips m (ofDigits 9 x y 0)
  | keyHeld (x : Fin 16) (k : Key) (h : (m.register x).toNat = k)
      (hk : m.keypad.isHeld k = true) : Skips m (ofDigits 0xE x 9 0xE)
  | keyUp (x : Fin 16) (h : ∀ k : Key, (m.register x).toNat = k → m.keypad.isHeld k = false) :
      Skips m (ofDigits 0xE x 0xA 1)

/-- By what the words ask for and by what they do, `v` skips the next word and `w` does not. -/
structure FirstSkips (m : Machine) (v w address : UInt16) : Prop where
  holds : m.Skips v
  fails : ¬ m.Skips w
  skipped : (m.executeWord v address).pc = m.pc + 2
  passed : (m.executeWord w address).pc = m.pc

def OneSkips (m : Machine) (v w address : UInt16) : Prop :=
  m.FirstSkips v w address ∨ m.FirstSkips w v address

/-! Conditions. -/

theorem register_eq_ofPair {x c d : Fin 16} :
    m.register x = ofPair c d ↔ (m.register x).toNat = 16 * c + d := by
  rw [← UInt8.toNat_inj, Word.toNat_ofPair]

theorem holds_keyHeld {x : Fin 16} : m.holds (.keyHeld x) = true ↔
    ∃ k : Key, (m.register x).toNat = k ∧ m.keypad.isHeld k = true := by
  simp only [holds, Keypad.isPressed_iff, Int.ofNat_inj]

theorem holds_keyUp {x : Fin 16} : m.holds (.keyUp x) = true ↔
    ∀ k : Key, (m.register x).toNat = k → m.keypad.isHeld k = false := by
  have hnot : m.holds (.keyUp x) = true ↔ ¬ m.holds (.keyHeld x) = true := by
    simp [holds]
  rw [hnot, holds_keyHeld]
  simp

theorem skips_iff : m.Skips w ↔ ∃ condition, Word.Spells w (.skip condition) ∧
    m.holds condition = true := by
  constructor
  · intro h
    cases h with
    | equalByte x c d h =>
      exact ⟨_, .equalByte x c d, beq_iff_eq.mpr (register_eq_ofPair.mpr h)⟩
    | differByte x c d h =>
      exact ⟨_, .differByte x c d, bne_iff_ne.mpr (register_eq_ofPair.not.mpr h)⟩
    | equal x y h => exact ⟨_, .equal x y, beq_iff_eq.mpr h⟩
    | differ x y h => exact ⟨_, .differ x y, bne_iff_ne.mpr h⟩
    | keyHeld x k h hk => exact ⟨_, .keyHeld x, holds_keyHeld.mpr ⟨k, h, hk⟩⟩
    | keyUp x h => exact ⟨_, .keyUp x, holds_keyUp.mpr h⟩
  · rintro ⟨condition, hw, h⟩
    cases hw with
    | equalByte x c d => exact .equalByte x c d (register_eq_ofPair.mp (beq_iff_eq.mp h))
    | differByte x c d => exact .differByte x c d (register_eq_ofPair.not.mp (bne_iff_ne.mp h))
    | equal x y => exact .equal x y (beq_iff_eq.mp h)
    | differ x y => exact .differ x y (bne_iff_ne.mp h)
    | keyHeld x =>
      obtain ⟨k, hx, hk⟩ := holds_keyHeld.mp h
      exact .keyHeld x k hx hk
    | keyUp x => exact .keyUp x (holds_keyUp.mp h)

theorem skips_iff_holds (hw : Word.Spells w (.skip condition)) :
    m.Skips w ↔ m.holds condition = true := by
  rw [skips_iff]
  constructor
  · rintro ⟨other, hw', h⟩
    cases (Instruction.decode_of_spells hw).symm.trans (Instruction.decode_of_spells hw')
    exact h
  · intro h
    exact ⟨condition, hw, h⟩

theorem executeWord_pc_of_skip (h : Word.Spells w (.skip condition)) :
    (m.executeWord w address).pc = if m.holds condition then m.pc + 2 else m.pc := by
  rw [executeWord_of_spells h, execute_pc]
  rfl

theorem firstSkips_of_holds (hv : Word.Spells v (.skip condition))
    (hw : Word.Spells w (.skip other)) (h : m.holds condition = true)
    (h' : m.holds other = false) : m.FirstSkips v w address where
  holds := (skips_iff_holds hv).mpr h
  fails := by
    rw [skips_iff_holds hw, h']
    exact Bool.false_ne_true
  skipped := by rw [executeWord_pc_of_skip hv, if_pos h]
  passed := by
    rw [executeWord_pc_of_skip hw, h']
    rfl

/-- Of two opposite conditions one holds. -/
theorem oneSkips_of_opposite (hv : Word.Spells v (.skip condition))
    (hw : Word.Spells w (.skip other)) (h : m.holds other = !m.holds condition) :
    m.OneSkips v w address := by
  cases hc : m.holds condition with
  | true => exact .inl (firstSkips_of_holds hv hw hc (by rw [h, hc]; rfl))
  | false => exact .inr (firstSkips_of_holds hw hv (by rw [h, hc]; rfl) hc)

/-! One instruction. -/

theorem cycle_pc_of_spells {i : Instruction} (hw : m.fetch = w) (h : Word.Spells w i) :
    m.cycle.pc = (m.setPc (m.pc + 2)).nextPc (some i) := by
  rw [cycle_pc, hw, Instruction.decode_of_spells h]

theorem cycle_pc_of_jumpsTo (h : m.JumpsTo m.fetch t) : m.cycle.pc.toNat = t := by
  generalize hw : m.fetch = w at h
  cases h with
  | jump b c d =>
    rw [cycle_pc_of_spells hw (.jump b c d)]
    exact Word.toNat_target b c d
  | call b c d h =>
    rw [cycle_pc_of_spells hw (.call b c d)]
    exact (congrArg UInt16.toNat (if_neg h)).trans (Word.toNat_target b c d)
  | jumpOffset b c d =>
    have htarget := Word.toNat_target b c d
    rw [cycle_pc_jumpOffset (hw ▸ Instruction.decode_of_spells (.jumpOffset b c d)), htarget]
  | ret calls a h =>
    rw [cycle_pc_of_spells hw .ret]
    change (m.stack.live.getLast?.getD (m.pc + 2)).toNat = a.toNat
    rw [h, List.getLast?_concat]
    rfl

theorem cycle_pc_of_skips (h : m.Skips m.fetch) : m.cycle.pc = m.pc + 2 + 2 := by
  obtain ⟨condition, hw, hholds⟩ := skips_iff.mp h
  rw [cycle_pc_of_spells rfl hw]
  exact if_pos hholds

/-- All other words lead to the next one. -/
theorem cycle_pc_of_other (hjump : ∀ t, ¬ m.JumpsTo m.fetch t) (hskip : ¬ m.Skips m.fetch) :
    m.cycle.pc = m.pc + 2 := by
  rw [cycle_pc]
  cases hi : Instruction.decode m.fetch with
  | none => rfl
  | some i =>
    have hw := Instruction.spells_of_decode hi
    generalize m.fetch = w at hjump hskip hw
    -- Left of those that can lead elsewhere are calls on a full stack, returns on an empty one and
    -- skips whose condition fails.
    cases i with
    | jump target =>
      cases hw with
      | jump b c d => exact absurd (.jump b c d) (hjump _)
    | jumpOffset base =>
      cases hw with
      | jumpOffset b c d => exact absurd (.jumpOffset b c d) (hjump _)
    | call target =>
      cases hw with
      | call b c d =>
        by_cases hfull : m.config.strict = true ∧ m.stack.live.length = 16
        · exact if_pos hfull
        · exact absurd (.call b c d hfull) (hjump _)
    | ret =>
      cases hw
      rcases List.eq_nil_or_concat' m.stack.live with hempty | ⟨calls, a, hcalls⟩
      · exact congrArg (fun calls : List UInt16 => calls.getLast?.getD (m.pc + 2)) hempty
      · exact absurd (.ret calls a hcalls) (hjump _)
    | skip condition =>
      have hfails : ¬ m.holds condition = true :=
        fun hholds => hskip (skips_iff.mpr ⟨condition, hw, hholds⟩)
      exact if_neg hfails
    | _ => rfl

theorem toNat_add_two (a : UInt16) : (a + 2).toNat = (a.toNat + 2) % 65536 := UInt16.toNat_add a 2

theorem toNat_add_four (a : UInt16) : (a + 2 + 2).toNat = (a.toNat + 4) % 65536 := by
  rw [toNat_add_two, toNat_add_two]
  omega

/-- Where a step leads. A jump is not cut to twelve bits, and a skip is decided by the registers as
they are with the key that the step delivers. Of two words with opposite conditions one skips. -/
theorem step_leads_on :
    (∀ m r : Machine, m.ready? = some r →
      let s := m.step.2
      m.Delivers r ∧
      (∀ t, r.JumpsTo r.fetch t → s.pc.toNat = t) ∧
      (r.Skips r.fetch → s.pc.toNat = (m.pc.toNat + 4) % 65536) ∧
      ((∀ t, ¬ r.JumpsTo r.fetch t) → ¬ r.Skips r.fetch →
        s.pc.toNat = (m.pc.toNat + 2) % 65536) ∧
      (s.fault ≠ none → s.pc.toNat = (m.pc.toNat + 2) % 65536)) ∧
    ∀ (m : Machine) (address : UInt16) (x y c d : Fin 16),
      m.OneSkips (ofDigits 3 x c d) (ofDigits 4 x c d) address ∧
      m.OneSkips (ofDigits 5 x y 0) (ofDigits 9 x y 0) address ∧
      m.OneSkips (ofDigits 0xE x 9 0xE) (ofDigits 0xE x 0xA 1) address := by
  constructor
  · intro m r hr
    have hpc : r.pc = m.pc := by
      obtain ⟨v, p, rfl⟩ := ready?_eq_some hr
      rfl
    rw [step_of_ready hr, ← hpc]
    refine ⟨delivers_of_ready hr, fun t h => cycle_pc_of_jumpsTo h, fun h => ?_,
      fun hjump hskip => ?_, fun h => ?_⟩
    · rw [cycle_pc_of_skips h, toNat_add_four]
    · rw [cycle_pc_of_other hjump hskip, toNat_add_two]
    · obtain ⟨f, hf⟩ := Option.ne_none_iff_exists'.mp h
      rw [(cycle_of_fault (ready?_fault hr) hf).2.2.2]
      exact toNat_add_two r.pc
  · intro m address x y c d
    exact ⟨oneSkips_of_opposite (.equalByte x c d) (.differByte x c d) rfl,
      oneSkips_of_opposite (.equal x y) (.differ x y) rfl,
      oneSkips_of_opposite (.keyHeld x) (.keyUp x) rfl⟩

/-- A program at an odd address waits for a key, skips if it is held, and jumps. -/
def pressedKey : List Operation :=
  [.poke 0x201 0xE3, .poke 0x202 0x9E, .poke 0x205 0xBF, .poke 0x206 0xFF, .setPc 0x201,
    .setRegister 0 2, .setWaiting (some 3), .setKey 5 true]

set_option maxRecDepth 100000 in
/-- The key that the skip asks for comes with the same step. The jump ends behind the store. -/
theorem delivered_key_is_asked_for :
    let m := (initial {} (.listed [0] 0)).after pressedKey
    let r := m.delivered 3 5
    let n := m.step.2
    (m.ready? = some r ∧ r.Skips r.fetch ∧ m.keypad.isHeld 0 = false ∧ m.register 3 = 0) ∧
      n.pc.toNat = 0x205 ∧
      (n.ready? = some n ∧ n.JumpsTo n.fetch 0x1001) ∧ n.step.2.pc.toNat = 0x1001 := by
  intro m r n
  have hm : (m.fault = none ∧ m.keypad.waiting = some 3 ∧ m.keypad.Lowest 5) ∧
      (r.fetch = ofDigits 0xE 3 9 0xE ∧ (r.register 3).toNat = (5 : Fin 16) ∧
        r.keypad.isHeld 5 = true) ∧
      m.keypad.isHeld 0 = false ∧ m.register 3 = 0 ∧ m.pc = 0x201 := by decide +kernel
  have hn : (n.fault = none ∧ n.keypad.waiting = none) ∧
      n.fetch = ofDigits 0xB 0xF 0xF 0xF ∧ (n.register 0).toNat = 2 := by decide +kernel
  obtain ⟨⟨hf, hw, hlowest⟩, ⟨hfetch, hfive, hheld⟩, hzero, hthree, hpc⟩ := hm
  obtain ⟨hrunning, hfetch', htwo⟩ := hn
  have hready := ready?_of_lowest hf hw hlowest
  have hready' := ready?_of_running hrunning.1 hrunning.2
  have hskips : r.Skips r.fetch := by
    rw [hfetch]
    exact .keyHeld 3 5 hfive hheld
  have hjumps : n.JumpsTo n.fetch 0x1001 := by
    have hjump := JumpsTo.jumpOffset (m := n) 0xF 0xF 0xF
    rw [htwo] at hjump
    rw [hfetch']
    exact hjump
  have hskipped := (step_leads_on.1 m r hready).2.2.1 hskips
  have hjumped := (step_leads_on.1 n n hready').2.1 0x1001 hjumps
  rw [hpc] at hskipped
  exact ⟨⟨hready, hskips, hzero, hthree⟩, hskipped, ⟨hready', hjumps⟩, hjumped⟩

end Chip8.Machine
