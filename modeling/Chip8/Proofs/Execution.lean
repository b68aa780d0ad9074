import Chip8.Operation

/-! What one instruction, or one doing of the host, can change in the machine. -/
namespace Chip8.Machine

variable {m r : Machine} {opcode address : UInt16}

theorem alu_eq (m : Machine) (op : AluOp) (x y : Fin 16) :
    ∃ v, m.alu op x y = { m with v := v } := by
  unfold alu
  split
  · exact ⟨_, rfl⟩
  · exact ⟨_, rfl⟩

theorem stackFault_eq (m : Machine) (kind : FaultKind) (opcode address : UInt16) :
    ∃ f, m.stackFault kind opcode address = { m with faults := f } := by
  unfold stackFault
  split
  · exact ⟨_, rfl⟩
  · exact ⟨_, rfl⟩

theorem skip_eq (m : Machine) (condition : Skip) :
    ∃ a, (if m.holds condition then m.skipNext else m) = { m with pc := a } := by
  split
  · exact ⟨_, rfl⟩
  · exact ⟨_, rfl⟩

theorem ret_eq (m : Machine) (opcode address : UInt16) : ∃ a s f,
    m.execute opcode address .ret = { m with pc := a, stack := s, faults := f } := by
  simp only [execute]
  split
  · exact ⟨_, _, _, rfl⟩
  · obtain ⟨f, hf⟩ := m.stackFault_eq .stackUnderflow opcode address
    exact ⟨_, _, f, hf⟩

theorem call_eq (m : Machine) (opcode address target : UInt16) : ∃ a s f,
    m.execute opcode address (.call target) = { m with pc := a, stack := s, faults := f } := by
  simp only [execute]
  split
  · exact ⟨_, _, _, rfl⟩
  · split
    · exact ⟨_, _, _, rfl⟩
    · exact ⟨_, _, _, rfl⟩

/-- The instructions whose outcome depends on more than their own word. -/
def branches : Instruction → Bool
  | .ret | .call _ | .skip _ | .alu _ _ _ => true
  | _ => false

/-- They leave the devices alone. -/
theorem execute_of_branches (m : Machine) (opcode address : UInt16) {i : Instruction}
    (h : branches i = true) : ∃ v a s f,
      m.execute opcode address i = { m with v := v, pc := a, stack := s, faults := f } := by
  cases i with
  | ret =>
    obtain ⟨a, s, f, hr⟩ := m.ret_eq opcode address
    exact ⟨m.v, a, s, f, hr⟩
  | call target =>
    obtain ⟨a, s, f, hc⟩ := m.call_eq opcode address target
    exact ⟨m.v, a, s, f, hc⟩
  | skip condition =>
    obtain ⟨a, hs⟩ := m.skip_eq condition
    exact ⟨m.v, a, m.stack, m.faults, hs⟩
  | alu op x y =>
    obtain ⟨v, ha⟩ := m.alu_eq op x y
    exact ⟨v, m.pc, m.stack, m.faults, ha⟩
  | _ => cases h

/-- The screen is touched by clearing and by drawing. -/
def nextDisplay (m : Machine) : Option Instruction → Display
  | some .clear => m.display.clear
  | some (.draw x y height) =>
    (m.display.draw m.spriteSource (m.register x).toNat (m.register y).toNat m.i.toNat
      height).display
  | _ => m.display

theorem nextDisplay_of_other {i : Option Instruction} (hc : i ≠ some .clear)
    (hd : ∀ x y height, i ≠ some (.draw x y height)) : m.nextDisplay i = m.display := by
  unfold nextDisplay
  split
  · exact absurd rfl hc
  · exact absurd rfl (hd _ _ _)
  · rfl

theorem execute_display (m : Machine) (opcode address : UInt16) (i : Instruction) :
    (m.execute opcode address i).display = m.nextDisplay (some i) := by
  have hbranch := m.execute_of_branches opcode address (i := i)
  cases i with
  | ret | call target | skip condition | alu op x y =>
    obtain ⟨_, _, _, _, h⟩ := hbranch rfl
    rw [h]
    rfl
  | restore x => simp only [execute, restore, nextDisplay]
  | _ => rfl

/-- The keypad is touched by the instruction that waits. -/
def nextKeypad (m : Machine) : Option Instruction → Keypad
  | some (.waitKey x) => m.keypad.wait x
  | _ => m.keypad

theorem execute_keypad (m : Machine) (opcode address : UInt16) (i : Instruction) :
    (m.execute opcode address i).keypad = m.nextKeypad (some i) := by
  have hbranch := m.execute_of_branches opcode address (i := i)
  cases i with
  | ret | call target | skip condition | alu op x y =>
    obtain ⟨_, _, _, _, h⟩ := hbranch rfl
    rw [h]
    rfl
  | restore x => simp only [execute, restore, nextKeypad]
  | _ => rfl

theorem execute_steps (m : Machine) (opcode address : UInt16) (i : Instruction) :
    (m.execute opcode address i).steps = m.steps := by
  have hbranch := m.execute_of_branches opcode address (i := i)
  cases i with
  | ret | call target | skip condition | alu op x y =>
    obtain ⟨_, _, _, _, h⟩ := hbranch rfl
    rw [h]
  | restore x => simp only [execute, restore]
  | _ => rfl

theorem execute_config (m : Machine) (opcode address : UInt16) (i : Instruction) :
    (m.execute opcode address i).config = m.config := by
  have hbranch := m.execute_of_branches opcode address (i := i)
  cases i with
  | ret | call target | skip condition | alu op x y =>
    obtain ⟨_, _, _, _, h⟩ := hbranch rfl
    rw [h]
  | restore x => simp only [execute, restore]
  | _ => rfl

theorem cycle_of_instruction {i : Instruction} (h : Instruction.decode m.fetch = some i) :
    m.cycle = ((m.setPc (m.pc + 2)).execute m.fetch m.pc i).countStep := by
  simp only [cycle, executeWord, h]

theorem cycle_of_no_instruction (h : Instruction.decode m.fetch = none) :
    m.cycle = ((m.setPc (m.pc + 2)).halt ⟨.unrecognizedOpcode, m.fetch, m.pc⟩).countStep := by
  simp only [cycle, executeWord, h]

theorem cycle_display (m : Machine) :
    m.cycle.display = m.nextDisplay (Instruction.decode m.fetch) := by
  cases h : Instruction.decode m.fetch with
  | none =>
    rw [cycle_of_no_instruction h]
    rfl
  | some i =>
    rw [cycle_of_instruction h, countStep, execute_display]
    cases i <;> rfl

theorem cycle_keypad (m : Machine) :
    m.cycle.keypad = m.nextKeypad (Instruction.decode m.fetch) := by
  cases h : Instruction.decode m.fetch with
  | none =>
    rw [cycle_of_no_instruction h]
    rfl
  | some i =>
    rw [cycle_of_instruction h, countStep, execute_keypad]
    cases i <;> rfl

theorem cycle_steps (m : Machine) : m.cycle.steps = m.steps + 1 := by
  cases h : Instruction.decode m.fetch with
  | none =>
    rw [cycle_of_no_instruction h]
    rfl
  | some i =>
    rw [cycle_of_instruction h, countStep, execute_steps]
    rfl

theorem cycle_config (m : Machine) : m.cycle.config = m.config := by
  cases h : Instruction.decode m.fetch with
  | none =>
    rw [cycle_of_no_instruction h]
    rfl
  | some i =>
    rw [cycle_of_instruction h, countStep, execute_config]
    rfl

/-- No instruction presses or releases a key. -/
theorem nextKeypad_held (m : Machine) (i : Option Instruction) :
    (m.nextKeypad i).held = m.keypad.held := by
  unfold nextKeypad
  split
  · rfl
  · rfl

/-- The machine with the key `k` put into the register `r`, where it waits no more. -/
def delivered (m : Machine) (r : Fin 16) (k : Key) : Machine :=
  (m.setRegister r (UInt8.ofNat k)).setKeypad m.keypad.stopWaiting

theorem ready?_cases (h : m.ready? = some r) : m.fault = none ∧
    ((m.keypad.waiting = none ∧ r = m) ∨
      ∃ x k, m.keypad.waiting = some x ∧ m.keypad.firstHeld? = some k ∧ r = m.delivered x k) := by
  unfold ready? resume? halted at h
  split at h
  · cases h
  · refine ⟨by simpa using ‹¬ m.fault.isSome = true›, ?_⟩
    split at h
    · cases h
      exact .inl ⟨‹_›, rfl⟩
    · cases hk : m.keypad.firstHeld? with
      | none =>
        rw [hk] at h
        cases h
      | some k =>
        rw [hk] at h
        cases h
        exact .inr ⟨_, k, ‹_›, rfl, rfl⟩

/-- A delivered key changes a register and ends the wait. -/
theorem ready?_eq_some (h : m.ready? = some r) : ∃ v p, r = { m with v := v, keypad := p } := by
  obtain ⟨_, rfl⟩ | ⟨x, k, _, _, rfl⟩ := (ready?_cases h).2
  · exact ⟨_, _, rfl⟩
  · exact ⟨_, _, rfl⟩

/-- An instruction is only fetched by a machine that has not halted. -/
theorem ready?_fault (h : m.ready? = some r) : r.fault = none := by
  have hm := (ready?_cases h).1
  obtain ⟨v, p, rfl⟩ := ready?_eq_some h
  exact hm

/-- It does not wait for a key either, one having been delivered. -/
theorem ready?_waiting (h : m.ready? = some r) : r.keypad.waiting = none := by
  obtain ⟨hw, rfl⟩ | ⟨x, k, _, _, rfl⟩ := (ready?_cases h).2
  · exact hw
  · rfl

theorem ready?_fetch (h : m.ready? = some r) : r.fetch = m.fetch := by
  obtain ⟨v, p, rfl⟩ := ready?_eq_some h
  rfl

theorem ready?_of_running (hf : m.fault = none) (hw : m.keypad.waiting = none) :
    m.ready? = some m := by
  simp [ready?, halted, resume?, hf, hw]

theorem ready?_of_halted {f : Fault} (h : m.fault = some f) : m.ready? = none := by
  simp [ready?, halted, h]

theorem step_cases (m : Machine) :
    (∃ r, m.ready? = some r ∧ m.step = (true, r.cycle)) ∨
      (m.ready? = none ∧ m.step = (false, m)) := by
  cases h : m.ready? with
  | some r => exact .inl ⟨r, rfl, step_of_ready h⟩
  | none => exact .inr ⟨rfl, step_of_not_ready h⟩

theorem ready?_of_executed (h : m.step.1 = true) : ∃ r, m.ready? = some r := by
  rcases m.step_cases with ⟨r, hr, -⟩ | ⟨-, hs⟩
  · exact ⟨r, hr⟩
  · rw [hs] at h
    cases h

theorem ready?_of_not_executed (h : m.step.1 = false) : m.ready? = none := by
  rcases m.step_cases with ⟨r, -, hs⟩ | ⟨hr, -⟩
  · rw [hs] at h
    cases h
  · exact hr

theorem step_steps (m : Machine) : m.step.2.steps = m.steps + m.step.1.toNat := by
  rcases m.step_cases with ⟨r, hr, hs⟩ | ⟨hr, hs⟩
  · obtain ⟨v, p, rfl⟩ := ready?_eq_some hr
    simp [hs, cycle_steps]
  · simp [hs]

theorem ready?_eq_none_iff : m.ready? = none ↔ m.halted = true ∨ m.blocked = true := by
  unfold ready? resume? blocked
  cases m.halted
  · cases m.keypad.waiting <;> cases m.keypad.firstHeld? <;> simp
  · simp

theorem reset_config (m : Machine) : m.reset.config = m.config := rfl

theorem resetCpu_config (m : Machine) : m.resetCpu.config = m.config := rfl

/-! An operation that the library can refuse changes one part, or none. -/

theorem load_eq (m : Machine) (program : List UInt8) :
    ∃ s, (m.perform (.load program)).2 = { m with memory := s } := by
  simp only [perform, load]
  cases m.memory.load program with
  | ok s => exact ⟨s, rfl⟩
  | error e => exact ⟨m.memory, rfl⟩

theorem setKey_eq (m : Machine) (index : Int) (down : Bool) : ∃ held,
    (m.perform (.setKey index down)).2 = { m with keypad := { m.keypad with held := held } } := by
  simp only [perform, setKey, Keypad.setKey]
  split
  · exact ⟨_, rfl⟩
  · split
    · exact ⟨m.keypad.held, rfl⟩
    · exact ⟨m.keypad.held, rfl⟩

theorem setNamedKey_eq (m : Machine) (layout : KeyLayout) (name : String) (down : Bool) : ∃ held,
    (m.perform (.setNamedKey layout name down)).2 =
      { m with keypad := { m.keypad with held := held } } := by
  simp only [perform, setNamedKey, Keypad.setNamed]
  cases layout.key name with
  | ok k => exact ⟨_, rfl⟩
  | error e => exact ⟨m.keypad.held, rfl⟩

end Chip8.Machine
