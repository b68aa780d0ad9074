import Chip8.Proofs.History
import Chip8.Proofs.Waiting

/-! What halts a machine. A halt does nothing else, and only a reset ends it. -/
namespace Chip8

/-- A call with no room left for its return address, or a return without one. -/
def CallStack.misuse? (s : CallStack) : Instruction → Option FaultKind
  | .call _ => if s.live.length = 16 then some .stackOverflow else none
  | .ret => if s.live = [] then some .stackUnderflow else none
  | _ => none

theorem CallStack.misuse?_call (s : CallStack) (target : UInt16) : s.misuse? (.call target) =
    if s.live.length = 16 then some .stackOverflow else none := rfl

theorem CallStack.misuse?_ret (s : CallStack) : s.misuse? .ret =
    if s.live = [] then some .stackUnderflow else none := rfl

def Record.fault? : Record → Option Fault
  | .halted f => some f
  | _ => none

/-- The halts told of in a reply. -/
def Reply.faults (r : Reply) : List Fault := r.records.filterMap Record.fault?

namespace Machine

variable {m : Machine} {i : Instruction} {kind : FaultKind} {f : Fault} {op : Operation}
  {ops : List Operation}

/-- The misuse of the stack that the next instruction is about to commit. -/
def misuse? (m : Machine) : Option FaultKind := (Instruction.decode m.fetch).bind m.stack.misuse?

/-- What the next instruction will halt the machine for. -/
def faultKind? (m : Machine) : Option FaultKind :=
  match Instruction.decode m.fetch with
  | none => some .unrecognizedOpcode
  | some i => if m.config.strict then m.stack.misuse? i else none

/-- The stack as it is, a lenient machine still jumps where it was told to. -/
def proceed (m : Machine) : Instruction → Machine
  | .call target => m.setPc target
  | _ => m

theorem execute_of_misuse (h : m.stack.misuse? i = some kind) (opcode address : UInt16) :
    m.execute opcode address i =
      if m.config.strict then m.halt ⟨kind, opcode, address⟩ else m.proceed i := by
  cases i with
  | call target =>
    rw [CallStack.misuse?_call] at h
    obtain ⟨hfull, hk⟩ := Option.ite_none_right_eq_some.mp h
    cases hk
    simp only [execute, CallStack.push?_eq_none_iff.mpr hfull]
    rfl
  | ret =>
    rw [CallStack.misuse?_ret] at h
    obtain ⟨hempty, hk⟩ := Option.ite_none_right_eq_some.mp h
    cases hk
    simp only [execute, CallStack.pop?_eq_none_iff.mpr hempty]
    rfl
  | _ => cases h

theorem push?_of_no_misuse {target : UInt16} (h : m.stack.misuse? (.call target) = none) :
    ∃ pushed, m.stack.push? m.pc = some pushed :=
  Option.ne_none_iff_exists'.mp fun hp => by
    rw [CallStack.misuse?_call, if_pos (CallStack.push?_eq_none_iff.mp hp)] at h
    cases h

theorem pop?_of_no_misuse (h : m.stack.misuse? .ret = none) :
    ∃ popped, m.stack.pop? = some popped :=
  Option.ne_none_iff_exists'.mp fun hp => by
    rw [CallStack.misuse?_ret, if_pos (CallStack.pop?_eq_none_iff.mp hp)] at h
    cases h

theorem execute_faults (h : m.stack.misuse? i = none) (opcode address : UInt16) :
    (m.execute opcode address i).faults = m.faults := by
  cases i with
  | call target =>
    obtain ⟨pushed, hp⟩ := push?_of_no_misuse h
    simp only [execute, hp]
    rfl
  | ret =>
    obtain ⟨popped, hp⟩ := pop?_of_no_misuse h
    simp only [execute, hp]
    rfl
  | skip condition =>
    obtain ⟨_, hs⟩ := m.skip_eq condition
    simp only [execute, hs]
  | alu op x y =>
    obtain ⟨_, ha⟩ := m.alu_eq op x y
    simp only [execute, ha]
  | restore x => simp only [execute, restore]
  | _ => rfl

theorem faultKind?_of_instruction (h : Instruction.decode m.fetch = some i) :
    m.faultKind? = if m.config.strict then m.stack.misuse? i else none := by
  simp only [faultKind?, h]

theorem faultKind?_of_no_instruction (h : Instruction.decode m.fetch = none) :
    m.faultKind? = some .unrecognizedOpcode := by
  simp only [faultKind?, h]

/-- An instruction that halts the machine moves it past its word and does nothing else. -/
theorem cycle_of_faultKind (h : m.faultKind? = some kind) :
    m.cycle = { m with
      pc := m.pc + 2
      faults := m.faults ++ [⟨kind, m.fetch, m.pc⟩]
      steps := m.steps + 1 } := by
  cases hi : Instruction.decode m.fetch with
  | none =>
    rw [faultKind?_of_no_instruction hi] at h
    cases h
    rw [cycle_of_no_instruction hi]
    rfl
  | some i =>
    rw [faultKind?_of_instruction hi] at h
    obtain ⟨hstrict, hmisuse⟩ := Option.ite_none_right_eq_some.mp h
    have hx := execute_of_misuse (m := m.setPc (m.pc + 2)) hmisuse m.fetch m.pc
    rw [if_pos (show (m.setPc (m.pc + 2)).config.strict = true from hstrict)] at hx
    rw [cycle_of_instruction hi, hx]
    rfl

theorem cycle_faults_of_none (h : m.faultKind? = none) : m.cycle.faults = m.faults := by
  cases hi : Instruction.decode m.fetch with
  | none =>
    rw [faultKind?_of_no_instruction hi] at h
    cases h
  | some i =>
    rw [faultKind?_of_instruction hi] at h
    rw [cycle_of_instruction hi]
    cases hmisuse : m.stack.misuse? i with
    | none => exact execute_faults (m := m.setPc (m.pc + 2)) hmisuse m.fetch m.pc
    | some kind =>
      have hx := execute_of_misuse (m := m.setPc (m.pc + 2)) hmisuse m.fetch m.pc
      have hlenient : ¬ m.config.strict = true := by simpa [hmisuse] using h
      rw [if_neg (show ¬ (m.setPc (m.pc + 2)).config.strict = true from hlenient)] at hx
      rw [hx]
      cases i <;> rfl

/-- An instruction halts the machine once at most. -/
theorem cycle_faults (m : Machine) : m.cycle.faults =
    m.faults ++ (m.faultKind?.map fun kind => ⟨kind, m.fetch, m.pc⟩).toList := by
  cases h : m.faultKind? with
  | none => rw [cycle_faults_of_none h, Option.map_none, Option.toList_none, List.append_nil]
  | some kind => rw [cycle_of_faultKind h, Option.map_some, Option.toList_some]

theorem fault_eq_none_iff : m.fault = none ↔ m.faults = [] := List.getLast?_eq_none_iff

theorem cycle_fault (hm : m.fault = none) :
    m.cycle.fault = m.faultKind?.map fun kind => ⟨kind, m.fetch, m.pc⟩ := by
  rw [fault, cycle_faults, fault_eq_none_iff.mp hm, List.nil_append]
  cases m.faultKind? <;> rfl

/-- No half-done effect stands behind a fault. -/
theorem cycle_of_fault (hm : m.fault = none) (hf : m.cycle.fault = some f) :
    m.faultKind? = some f.kind ∧ f.opcode = m.fetch ∧ f.address = m.pc ∧
      m.cycle = { m with pc := m.pc + 2, faults := [f], steps := m.steps + 1 } := by
  rw [cycle_fault hm] at hf
  obtain ⟨kind, hkind, rfl⟩ := Option.map_eq_some_iff.mp hf
  refine ⟨hkind, rfl, rfl, ?_⟩
  rw [cycle_of_faultKind hkind, fault_eq_none_iff.mp hm, List.nil_append]

theorem misuse?_eq_some_iff : m.misuse? = some kind ↔
    (kind = .stackOverflow ∧ (∃ target, Instruction.decode m.fetch = some (.call target)) ∧
        m.stack.live.length = 16) ∨
      (kind = .stackUnderflow ∧ Instruction.decode m.fetch = some .ret ∧ m.stack.live = []) := by
  unfold misuse?
  cases hi : Instruction.decode m.fetch with
  | none => simp
  | some i =>
    cases i with
    | call target => simp [CallStack.misuse?_call, and_comm, eq_comm (a := kind)]
    | ret => simp [CallStack.misuse?_ret, and_comm, eq_comm (a := kind)]
    | _ => exact ⟨nofun, by simp⟩

theorem faultKind?_eq_some (h : m.faultKind? = some kind) :
    (kind = .unrecognizedOpcode ∧ Instruction.decode m.fetch = none) ∨
    (m.config.strict = true ∧
      ((kind = .stackOverflow ∧ (∃ target, Instruction.decode m.fetch = some (.call target)) ∧
          m.stack.live.length = 16) ∨
        (kind = .stackUnderflow ∧ Instruction.decode m.fetch = some .ret ∧
          m.stack.live = []))) := by
  cases hi : Instruction.decode m.fetch with
  | none =>
    rw [faultKind?_of_no_instruction hi] at h
    cases h
    exact .inl ⟨rfl, rfl⟩
  | some i =>
    rw [faultKind?_of_instruction hi] at h
    obtain ⟨hstrict, hmisuse⟩ := Option.ite_none_right_eq_some.mp h
    rw [← hi]
    exact .inr ⟨hstrict, misuse?_eq_some_iff.mp (by rw [misuse?, hi]; exact hmisuse)⟩

theorem toNat_fetch (m : Machine) : m.fetch.toNat = 256 * (m.memory.read m.pc.toNat).toNat +
    (m.memory.read ((m.pc.toNat + 1) % 65536 : Nat)).toNat := by
  have hhigh := (m.memory.read m.pc.toNat).toNat_lt
  have hlow := (m.memory.read (m.pc + 1).toNat).toNat_lt
  have hnext : (m.pc + 1).toNat = (m.pc.toNat + 1) % 65536 := UInt16.toNat_add m.pc 1
  rw [fetch, UInt16.toNat_ofNat_of_lt' (by simp only [UInt16.size]; omega), hnext]

theorem step_of_fault (hm : m.fault = none) (hf : m.step.2.fault = some f) :
    ∃ d, m.ready? = some d ∧ d.faultKind? = some f.kind ∧ f.opcode = m.fetch ∧ f.address = m.pc ∧
      m.step = (true, { d with pc := m.pc + 2, faults := [f], steps := m.steps + 1 }) := by
  rcases m.step_cases with ⟨d, hd, hs⟩ | ⟨_, hs⟩
  · rw [hs] at hf
    obtain ⟨hkind, hop, haddr, hc⟩ := cycle_of_fault (ready?_fault hd) hf
    refine ⟨d, hd, hkind, ?_, ?_, ?_⟩
    all_goals obtain ⟨v, p, rfl⟩ := ready?_eq_some hd
    · exact hop
    · exact haddr
    · rw [hs, hc]
  · rw [hs, hm] at hf
    cases hf

/-! From then on. -/

theorem perform_faults (hb : op.isBatch = false) (hs : op ≠ .step) (hr : op ≠ .reset)
    (hc : op ≠ .resetCpu) : (m.perform op).2.faults = m.faults := by
  obtain ⟨_, _, _, _, _, _, _, h, _⟩ := perform_host (m := m) hb hs hr hc
  rw [h]

theorem perform_fault (hb : op.isBatch = false) (hs : op ≠ .step) (hr : op ≠ .reset)
    (hc : op ≠ .resetCpu) : (m.perform op).2.fault = m.fault :=
  congrArg List.getLast? (perform_faults hb hs hr hc)

theorem faults_prefix_step (m : Machine) : m.faults <+: m.step.2.faults := by
  rcases m.step_cases with ⟨d, hd, hs⟩ | ⟨_, hs⟩
  · obtain ⟨v, p, rfl⟩ := ready?_eq_some hd
    rw [hs, cycle_faults]
    exact List.prefix_append _ _
  · rw [hs]

/-- Until a reset, what has halted the machine is not forgotten. -/
theorem faults_prefix_after (hops : ∀ op ∈ ops, op ≠ .reset ∧ op ≠ .resetCpu) :
    m.faults <+: (m.after ops).faults := by
  refine after_invariant (P := fun d => m.faults <+: d.faults) (fun d op hb hop hd => ?_)
    ⟨nofun, nofun⟩ ⟨nofun, nofun⟩ hops (List.prefix_refl _)
  by_cases hs : op = .step
  · rw [hs]
    exact hd.trans d.faults_prefix_step
  · rw [perform_faults hb hs hop.1 hop.2]
    exact hd

theorem faults_perform_of_halted (hb : op.isBatch = false) (hop : op ≠ .reset ∧ op ≠ .resetCpu)
    (hf : m.fault = some f) : (m.perform op).2.faults = m.faults := by
  by_cases hs : op = .step
  · rw [hs, perform_step, step_of_not_ready (ready?_of_halted hf)]
  · exact perform_faults hb hs hop.1 hop.2

theorem fault_perform (hb : op.isBatch = false) (hop : op ≠ .reset ∧ op ≠ .resetCpu)
    (hf : m.fault = some f) : (m.perform op).2.fault = some f :=
  (congrArg List.getLast? (faults_perform_of_halted hb hop hf)).trans hf

/-- A halted machine is not halted again. -/
theorem faults_after_of_halted (hops : ∀ op ∈ ops, op ≠ .reset ∧ op ≠ .resetCpu)
    (hf : m.fault = some f) : (m.after ops).faults = m.faults := by
  refine after_invariant (P := fun d => d.faults = m.faults) (fun d op hb hop hd => ?_)
    ⟨nofun, nofun⟩ ⟨nofun, nofun⟩ hops rfl
  have hhalted : d.fault = some f := (congrArg List.getLast? hd).trans hf
  exact (faults_perform_of_halted hb hop hhalted).trans hd

/-- A fault is there to stay. -/
theorem fault_after (hops : ∀ op ∈ ops, op ≠ .reset ∧ op ≠ .resetCpu) (hf : m.fault = some f) :
    (m.after ops).fault = some f :=
  (congrArg List.getLast? (faults_after_of_halted hops hf)).trans hf

theorem run_of_not_ready (h : m.ready? = none) (n : Int) : m.run n = (0, m) := by
  unfold run
  cases n.toNat with
  | zero => rfl
  | succ n => simp only [runFrom, step_of_not_ready h]

theorem haltRecords_of_faults_eq {n : Machine} (h : n.faults = m.faults) :
    m.haltRecords n = [] := by
  rw [haltRecords, h, List.drop_length, List.map_nil]

/-- Nothing that a halted machine is asked to do leaves a record of a halt. -/
theorem haltRecords_of_halted (hf : m.fault = some f) (op : Operation) :
    m.haltRecords (m.perform op).2 = [] := by
  by_cases hreset : op = .reset ∨ op = .resetCpu
  · rcases hreset with rfl | rfl
    · exact congrArg (List.map Record.halted) List.drop_nil
    · exact congrArg (List.map Record.halted) List.drop_nil
  · have hops : ∀ o ∈ [op], o ≠ .reset ∧ o ≠ .resetCpu :=
      List.forall_mem_singleton.mpr (not_or.mp hreset)
    exact haltRecords_of_faults_eq (faults_after_of_halted hops hf)

theorem faults_ran {n : Machine} (h : m.haltRecords n = []) (answer : Answer) :
    (m.ran answer n).1.faults = [] := by
  simp only [ran, Reply.faults, h, List.filterMap_nil]

theorem faults_of_halted (hf : m.fault = some f) (op : Operation) :
    (m.perform op).1.faults = [] := by
  cases op with
  | step => exact faults_ran (haltRecords_of_halted hf .step) _
  | run n => exact faults_ran (haltRecords_of_halted hf (.run n)) _
  | runFrame n => exact faults_ran (haltRecords_of_halted hf (.runFrame n)) _
  | runPaced maxSteps perTick =>
    have h : m.haltRecords (m.runPaced maxSteps perTick).2 = [] :=
      haltRecords_of_halted hf (.runPaced maxSteps perTick)
    simp only [perform, Reply.faults, h, paceRecords, List.nil_append]
    split
    · rfl
    · rfl
  | load program =>
    simp only [perform, attempted]
    cases m.load program <;> rfl
  | setKey index down =>
    simp only [perform, attempted]
    cases m.setKey index down <;> rfl
  | setNamedKey layout name down =>
    simp only [perform, attempted]
    cases m.setNamedKey layout name down <;> rfl
  | _ => rfl

theorem faults_performAll_of_halted (hops : ∀ op ∈ ops, op ≠ .reset ∧ op ≠ .resetCpu)
    (hf : m.fault = some f) : (m.performAll ops).1.flatMap Reply.faults = [] := by
  induction ops generalizing m with
  | nil => rfl
  | cons op ops ih =>
    have hnext : (m.after [op]).fault = some f :=
      fault_after (List.forall_mem_singleton.mpr (hops op (by simp))) hf
    have htail := ih (fun o ho => hops o (by simp [ho])) hnext
    simp only [performAll, List.flatMap_cons, faults_of_halted hf]
    exact htail

theorem faults_step (hm : m.fault = none) (hf : m.step.2.fault = some f) :
    (m.perform .step).1.faults = [f] := by
  obtain ⟨_, _, _, _, _, hs⟩ := step_of_fault hm hf
  have hrecords : m.haltRecords m.step.2 = [.halted f] := by
    rw [haltRecords, hs, fault_eq_none_iff.mp hm]
    rfl
  simp only [perform, ran, Reply.faults, hrecords]
  rfl

/-- The host leaves the waiting to the program. -/
theorem not_waiting_of_halted (config : Config) (source : Random.Source)
    (hops : ∀ op ∈ ops, ∀ r, op ≠ .setWaiting (some r)) :
    ((initial config source).after ops).fault ≠ none →
      ((initial config source).after ops).keypad.waiting = none := by
  refine after_invariant (P := fun m => m.fault ≠ none → m.keypad.waiting = none) ?_
    (fun _ => nofun) (fun _ => nofun) hops (fun h => absurd rfl h)
  intro m op hb hop hm
  cases op with
  | step =>
    rw [perform_step]
    rcases m.step_cases with ⟨d, hd, hs⟩ | ⟨_, hs⟩
    · rw [hs]
      intro hf
      obtain ⟨f, hf⟩ := Option.ne_none_iff_exists'.mp hf
      -- The key has been delivered by then, and an instruction that halts starts no new wait.
      have hw := ready?_waiting hd
      rw [(cycle_of_fault (ready?_fault hd) hf).2.2.2]
      exact hw
    · rw [hs]
      exact hm
  | run | runFrame | runPaced => cases hb
  | load program =>
    obtain ⟨_, h⟩ := m.load_eq program
    rw [h]
    exact hm
  | setKey index down =>
    obtain ⟨_, h⟩ := m.setKey_eq index down
    rw [h]
    exact hm
  | setNamedKey layout name down =>
    obtain ⟨_, h⟩ := m.setNamedKey_eq layout name down
    rw [h]
    exact hm
  | setWaiting r =>
    cases r with
    | none => exact fun _ => rfl
    | some r => exact absurd rfl (hop r)
  | reset | resetCpu => exact fun h => absurd rfl h
  | _ => exact hm

/-- A step that halts the machine tells why and where, moves past the word and counts, and leaves
everything else as it found it, a delivered key apart. Until a reset the fault stays, no step and no
run does anything, and the halt is told of once. Unless the host has it wait, a halted machine does
not wait for a key. -/
theorem halt_is_clean_and_final (m : Machine) (f : Fault) (hm : m.fault = none)
    (hf : m.step.2.fault = some f) :
    (∃ d, ((m.keypad.waiting = none ∧ d = m) ∨
        ∃ r k, m.keypad.waiting = some r ∧ m.keypad.Lowest k ∧ d = m.delivered r k) ∧
      m.step = (true, { d with pc := m.pc + 2, faults := [f], steps := m.steps + 1 })) ∧
    (f.address = m.pc ∧ f.opcode.toNat = 256 * (m.memory.read m.pc.toNat).toNat +
        (m.memory.read ((m.pc.toNat + 1) % 65536 : Nat)).toNat ∧
        ∀ a, 4096 ≤ a → m.memory.read a = 0) ∧
    ((f.kind = .unrecognizedOpcode ∧ Instruction.decode f.opcode = none) ∨
      (m.config.strict = true ∧
        ((f.kind = .stackOverflow ∧ (∃ target, Instruction.decode f.opcode = some (.call target)) ∧
            m.stack.live.length = 16) ∨
          (f.kind = .stackUnderflow ∧ Instruction.decode f.opcode = some .ret ∧
            m.stack.live = [])))) ∧
    (∀ ops, (∀ op ∈ ops, op ≠ .reset ∧ op ≠ .resetCpu) →
      let h := m.step.2.after ops
      h.fault = some f ∧ h.step = (false, h) ∧ (∀ n, h.run n = (0, h)) ∧
        (m.performAll (.step :: ops)).1.flatMap Reply.faults = [f]) ∧
    ∀ config source ops, (∀ op ∈ ops, ∀ r, op ≠ .setWaiting (some r)) →
      let h := (initial config source).after ops
      h.fault ≠ none → h.keypad.waiting = none := by
  obtain ⟨d, hd, hkind, hop, haddr, hs⟩ := step_of_fault hm hf
  refine ⟨⟨d, ?_, hs⟩, ⟨haddr, ?_, fun a ha => m.memory.read_outside (.inr ha)⟩, ?_,
    fun ops hops => ?_, ?_⟩
  · obtain hsame | ⟨r, k, hw, hk, rfl⟩ := (ready?_cases hd).2
    · exact .inl hsame
    · exact .inr ⟨r, k, hw, Keypad.firstHeld?_eq_some_iff.mp hk, rfl⟩
  · rw [hop, toNat_fetch]
  · have hwhy := faultKind?_eq_some hkind
    obtain ⟨v, p, rfl⟩ := ready?_eq_some hd
    rw [hop]
    exact hwhy
  · intro h
    have hstays : h.fault = some f := fault_after hops hf
    have hstuck : h.ready? = none := ready?_of_halted hstays
    refine ⟨hstays, step_of_not_ready hstuck, fun n => run_of_not_ready hstuck n, ?_⟩
    have hlater := faults_performAll_of_halted hops hf
    rw [performAll]
    simp only [List.flatMap_cons, faults_step hm hf]
    exact congrArg ([f] ++ ·) hlater
  · exact fun config source ops hops => not_waiting_of_halted config source hops

/-- A strict machine that waits with the key 3 held, and whose next instruction returns from no
call. -/
def waitingReturn : List Operation :=
  [.poke 0x200 0xF5, .poke 0x201 0x0A, .poke 0x202 0x00, .poke 0x203 0xEE, .step, .setKey 3 true]

set_option maxRecDepth 100000 in
/-- The key is delivered, then the machine halts and stays so under a new program. -/
theorem waiting_return_halts :
    let m := (initial { strict := true } (.listed [0] 0)).after waitingReturn
    let later := (initial { strict := true } (.listed [0] 0)).after (waitingReturn ++ [.step])
    let f : Fault := ⟨.stackUnderflow, 0x00EE, 0x202⟩
    let ops : List Operation := [.load [0x12, 0x00], .setPc 0x200, .runFrame 10, .setKey 3 false]
    (m.fault = none ∧ m.step.2.fault = some f) ∧ m.step.1 = true ∧ m.step.2.register 5 = 3 ∧
      ((m.step.2.after ops).fault = some f ∧
        (m.step.2.after ops).step = (false, m.step.2.after ops) ∧
        (m.performAll (.step :: ops)).1.flatMap Reply.faults = [f]) ∧
      later.fault ≠ none ∧ later.keypad.waiting = none := by
  intro m later f ops
  have hm : m.fault = none := by decide +kernel
  have hf : m.step.2.fault = some f := by decide +kernel
  have hhalted : later.fault ≠ none := by decide +kernel
  obtain ⟨⟨d, -, hs⟩, -, -, hfinal, hidle⟩ := halt_is_clean_and_final m f hm hf
  obtain ⟨hstays, hstuck, -, hlog⟩ := hfinal ops (by simp [ops])
  have hquiet := hidle { strict := true } (.listed [0] 0) (waitingReturn ++ [.step])
    (by simp [waitingReturn])
  exact ⟨⟨hm, hf⟩, congrArg Prod.fst hs, by decide +kernel, ⟨hstays, hstuck, hlog⟩, hhalted,
    hquiet hhalted⟩

end Machine

end Chip8
