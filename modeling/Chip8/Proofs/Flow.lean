import Chip8.Proofs.Halting

/-! Where a program goes: the place of its next instruction, and the calls that it is in. -/
namespace Chip8

namespace Instruction

variable {w a : UInt16} {i : Instruction}

/-- The address that the word itself carries, where the instruction may go there. -/
def target? : Instruction → Option UInt16
  | jump target | call target | jumpOffset target => some target
  | _ => none

theorem ofMisc?_target? (x : Fin 16) (n : Nat) (h : ofMisc? x n = some i) : i.target? = none := by
  unfold ofMisc? at h
  split at h
  all_goals cases h
  all_goals rfl

/-- It has twelve bits. -/
theorem target_lt (h : decode w = some i) (ha : i.target? = some a) : a.toNat < 4096 := by
  have haddress : (Word.address w).toNat < 4096 := by
    have hmod := Nat.mod_lt w.toNat (show 0 < 4096 by decide)
    rw [Word.address, UInt16.toNat_ofNat_of_lt' (by simp only [UInt16.size]; omega)]
    exact hmod
  have hmisc := ofMisc?_target? (i := i) (Word.x w) (w.toNat % 256)
  unfold decode at h
  split at h
  case h_9 =>
    obtain ⟨op, _, rfl⟩ := Option.map_eq_some_iff.mp h
    cases ha
  case h_16 => cases (hmisc h).symm.trans ha
  -- Every other word names its instruction, with or without a condition on its low digits.
  all_goals try split_ifs at h
  all_goals cases h
  all_goals cases ha
  all_goals exact haddress

end Instruction

/-- The calls that a program is in, oldest first, after an instruction with the address `behind` it.
There are at most sixteen: a call from the depth of them all is not noted. -/
def callsAfter (behind : UInt16) (calls : List UInt16) : Option Instruction → List UInt16
  | some .ret => calls.dropLast
  | some (.call _) => if calls.length < 16 then calls ++ [behind] else calls
  | _ => calls

theorem callsAfter_call {calls : List UInt16} (h : calls.length < 16) (behind target : UInt16) :
    callsAfter behind calls (some (.call target)) = calls ++ [behind] := if_pos h

namespace Machine

variable {m : Machine} {i : Instruction}

/-- Where the program goes on. `pc` already points behind the instruction. -/
def nextPc (m : Machine) : Option Instruction → UInt16
  | some .ret => m.stack.live.getLast?.getD m.pc
  | some (.jump target) => target
  | some (.call target) =>
    if m.config.strict = true ∧ m.stack.live.length = 16 then m.pc else target
  | some (.skip condition) => if m.holds condition then m.pc + 2 else m.pc
  | some (.jumpOffset base) => base + (m.register 0).toUInt16
  | _ => m.pc

theorem length_live_le (m : Machine) : m.stack.live.length ≤ 16 := by
  rw [CallStack.length_live]
  exact m.stack.depth_le

theorem push?_cases (m : Machine) (a : UInt16) :
    (m.stack.live.length = 16 ∧ m.stack.push? a = none) ∨
      ∃ pushed, m.stack.live.length < 16 ∧ m.stack.push? a = some pushed ∧
        pushed.live = m.stack.live ++ [a] := by
  cases hp : m.stack.push? a with
  | none => exact .inl ⟨CallStack.push?_eq_none_iff.mp hp, rfl⟩
  | some pushed =>
    have hne : m.stack.live.length ≠ 16 := fun h => by
      cases (CallStack.push?_eq_none_iff.mpr h).symm.trans hp
    have hle := m.length_live_le
    exact .inr ⟨pushed, by omega, rfl, CallStack.live_push? hp⟩

theorem execute_ret (m : Machine) (opcode address : UInt16) :
    (m.execute opcode address .ret).pc = m.stack.live.getLast?.getD m.pc ∧
      (m.execute opcode address .ret).stack.live = m.stack.live.dropLast := by
  cases hp : m.stack.pop? with
  | none =>
    obtain ⟨f, hf⟩ := m.stackFault_eq .stackUnderflow opcode address
    have hempty := CallStack.pop?_eq_none_iff.mp hp
    simp only [execute, hp, hf, hempty]
    exact ⟨rfl, rfl⟩
  | some popped =>
    have hlive := CallStack.live_pop? hp
    simp only [execute, hp, hlive, List.getLast?_concat, List.dropLast_concat]
    exact ⟨rfl, rfl⟩

theorem execute_call (m : Machine) (opcode address target : UInt16) :
    (m.execute opcode address (.call target)).pc = m.nextPc (some (.call target)) ∧
      (m.execute opcode address (.call target)).stack.live =
        callsAfter m.pc m.stack.live (some (.call target)) := by
  simp only [nextPc, callsAfter]
  rcases m.push?_cases m.pc with ⟨hfull, hp⟩ | ⟨pushed, hroom, hp, hlive⟩
  · simp only [execute, hp]
    rw [if_neg (show ¬ m.stack.live.length < 16 by omega)]
    by_cases hs : m.config.strict = true
    · rw [if_pos hs, if_pos ⟨hs, hfull⟩]
      exact ⟨rfl, rfl⟩
    · rw [if_neg hs, if_neg fun h => hs h.1]
      exact ⟨rfl, rfl⟩
  · simp only [execute, hp]
    rw [if_pos hroom, if_neg (show ¬ (_ ∧ m.stack.live.length = 16) by omega)]
    exact ⟨rfl, hlive⟩

theorem execute_pc (m : Machine) (opcode address : UInt16) (i : Instruction) :
    (m.execute opcode address i).pc = m.nextPc (some i) := by
  cases i with
  | ret => exact (m.execute_ret opcode address).1
  | call target => exact (m.execute_call opcode address target).1
  | skip condition =>
    simp only [execute, nextPc]
    split
    · rfl
    · rfl
  | alu op x y =>
    obtain ⟨_, ha⟩ := m.alu_eq op x y
    simp only [execute, ha, nextPc]
  | restore x => simp only [execute, restore, nextPc]
  | _ => rfl

theorem execute_live (m : Machine) (opcode address : UInt16) (i : Instruction) :
    (m.execute opcode address i).stack.live = callsAfter m.pc m.stack.live (some i) := by
  cases i with
  | ret => exact (m.execute_ret opcode address).2
  | call target => exact (m.execute_call opcode address target).2
  | skip condition =>
    obtain ⟨_, hs⟩ := m.skip_eq condition
    simp only [execute, hs, callsAfter]
  | alu op x y =>
    obtain ⟨_, ha⟩ := m.alu_eq op x y
    simp only [execute, ha, callsAfter]
  | restore x => simp only [execute, restore, callsAfter]
  | _ => rfl

/-- Where every instruction leads. -/
theorem cycle_pc (m : Machine) :
    m.cycle.pc = (m.setPc (m.pc + 2)).nextPc (Instruction.decode m.fetch) := by
  cases hi : Instruction.decode m.fetch with
  | none =>
    rw [cycle_of_no_instruction hi]
    rfl
  | some i =>
    rw [cycle_of_instruction hi]
    exact execute_pc _ m.fetch m.pc i

/-- The stack is the list of the calls that the program is in. -/
theorem cycle_live (m : Machine) :
    m.cycle.stack.live = callsAfter (m.pc + 2) m.stack.live (Instruction.decode m.fetch) := by
  cases hi : Instruction.decode m.fetch with
  | none =>
    rw [cycle_of_no_instruction hi]
    rfl
  | some i =>
    rw [cycle_of_instruction hi]
    exact execute_live _ m.fetch m.pc i

end Machine

end Chip8
