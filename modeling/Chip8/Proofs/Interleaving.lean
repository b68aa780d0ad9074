import Chip8.Proofs.Commuting
import Chip8.Proofs.Executions

/-! The host between instructions. What it does to the timers or the keys may come before an
instruction or behind it, unless the instruction looks at them. -/
namespace Chip8

namespace Instruction

/-- It reads or sets a timer. -/
def usesTimers : Instruction → Bool
  | readDelay _ | setDelay _ | setSound _ => true
  | _ => false

/-- It asks for a key to be held, or not to be. -/
def asksKeys : Instruction → Bool
  | skip (.keyHeld _) | skip (.keyUp _) => true
  | _ => false

end Instruction

namespace Machine

variable {m d : Machine} {i : Instruction} {k : Key} {b : Bool} {ops others : List Operation}

/-- The instruction that a step would execute. -/
def upcoming? (m : Machine) : Option Instruction :=
  m.ready?.bind fun d => Instruction.decode d.fetch

/-- Either operation may come first. The replies are the same, and so is the machine behind both. -/
structure Interchange (m : Machine) (a b : Operation) : Prop where
  last : ((m.perform b).2.perform a).2 = ((m.perform a).2.perform b).2
  first : ((m.perform b).2.perform a).1 = (m.perform a).1
  second : ((m.perform a).2.perform b).1 = (m.perform b).1

theorem upcoming?_of_ready (h : m.ready? = some d) :
    m.upcoming? = Instruction.decode d.fetch := by
  rw [upcoming?, h]
  rfl

/-- A step that commutes with what the host does to the machine gives the same reply. -/
theorem perform_step_of_map {φ : Machine → Machine} (hf : ∀ m, (φ m).faults = m.faults)
    (h : (φ m).step = (m.step.1, φ m.step.2)) :
    (φ m).perform .step = ((m.perform .step).1, φ (m.perform .step).2) := by
  simp only [perform, ran, haltRecords, h, hf]

/-! Ticks. -/

theorem execute_timers (hi : i.usesTimers = false) (opcode address : UInt16) :
    (m.execute opcode address i).timers = m.timers := by
  have hbranch := m.execute_of_branches opcode address (i := i)
  cases i with
  | ret | call target | skip condition | alu op x y =>
    obtain ⟨_, _, _, _, h⟩ := hbranch rfl
    rw [h]
  | readDelay | setDelay | setSound => cases hi
  | restore x => simp only [execute, restore]
  | _ => rfl

theorem cycle_timers (h : (Instruction.decode m.fetch).any Instruction.usesTimers = false) :
    m.cycle.timers = m.timers := by
  cases hi : Instruction.decode m.fetch with
  | none =>
    rw [cycle_of_no_instruction hi]
    rfl
  | some i =>
    rw [hi] at h
    rw [cycle_of_instruction hi]
    exact execute_timers h m.fetch m.pc

theorem onDevices_setTimers (t : Timers UInt8) : OnDevices fun m => m.setTimers t where
  v _ := rfl
  pc _ := rfl
  stack _ := rfl
  config _ := rfl
  fetch _ := rfl
  setRegister _ _ _ := rfl
  setPc _ _ := rfl
  setStack _ _ := rfl
  halt _ _ := rfl
  countStep _ := rfl

theorem execute_setTimers (t : Timers UInt8) (hi : i.usesTimers = false)
    (opcode address : UInt16) :
    (m.setTimers t).execute opcode address i = (m.execute opcode address i).setTimers t := by
  have hbranch := (onDevices_setTimers t).execute m (i := i)
  have hholds : ∀ condition, i = .skip condition →
      (m.setTimers t).holds condition = m.holds condition := fun condition _ =>
    holds_map (φ := fun d => d.setTimers t) rfl rfl condition
  cases i with
  | ret | call target | skip condition | alu op x y => exact hbranch rfl hholds opcode address
  | readDelay | setDelay | setSound => cases hi
  | _ => rfl

theorem cycle_setTimers (t : Timers UInt8)
    (h : (Instruction.decode m.fetch).any Instruction.usesTimers = false) :
    (m.setTimers t).cycle = m.cycle.setTimers t := by
  refine (onDevices_setTimers t).cycle m fun i hi => ?_
  rw [hi] at h
  exact execute_setTimers t h m.fetch m.pc

theorem ready?_setTimers (m : Machine) (t : Timers UInt8) :
    (m.setTimers t).ready? = m.ready?.map fun d => d.setTimers t :=
  ready?_map (φ := fun d => d.setTimers t) rfl rfl fun _ _ => rfl

theorem step_timers (h : m.upcoming?.any Instruction.usesTimers = false) :
    m.step.2.timers = m.timers := by
  rcases m.step_cases with ⟨d, hd, hs⟩ | ⟨_, hs⟩
  · rw [upcoming?_of_ready hd] at h
    obtain ⟨v, p, rfl⟩ := ready?_eq_some hd
    rw [hs, cycle_timers h]
  · rw [hs]

theorem step_setTimers (t : Timers UInt8) (h : m.upcoming?.any Instruction.usesTimers = false) :
    (m.setTimers t).step = (m.step.1, m.step.2.setTimers t) := by
  refine step_map (φ := fun d => d.setTimers t) (m.ready?_setTimers t) fun d hd => ?_
  rw [upcoming?_of_ready hd] at h
  exact cycle_setTimers t h

theorem interchange_tick_step (h : m.upcoming?.any Instruction.usesTimers = false) :
    m.Interchange .tick .step := by
  have hset : m.tick.perform .step =
      ((m.perform .step).1, (m.perform .step).2.setTimers m.timers.tick) :=
    perform_step_of_map (φ := fun d => d.setTimers m.timers.tick) (fun _ => rfl)
      (step_setTimers m.timers.tick h)
  have htimers : m.step.2.timers = m.timers := step_timers h
  have hlast : m.step.2.tick = m.step.2.setTimers m.timers.tick := by rw [tick, htimers]
  have hreply := congrArg Prod.fst hset
  have hstep := congrArg Prod.snd hset
  exact ⟨hlast.trans hstep.symm, rfl, hreply⟩

/-! Keys. -/

def withKey (m : Machine) (k : Key) (b : Bool) : Machine := m.setKeypad (m.keypad.put k b)

theorem onDevices_withKey (k : Key) (b : Bool) : OnDevices fun m => m.withKey k b where
  v _ := rfl
  pc _ := rfl
  stack _ := rfl
  config _ := rfl
  fetch _ := rfl
  setRegister _ _ _ := rfl
  setPc _ _ := rfl
  setStack _ _ := rfl
  halt _ _ := rfl
  countStep _ := rfl

theorem execute_withKey (k : Key) (b : Bool) (hi : i.asksKeys = false) (opcode address : UInt16) :
    (m.withKey k b).execute opcode address i = (m.execute opcode address i).withKey k b := by
  have hbranch := (onDevices_withKey k b).execute m (i := i)
  have hholds : ∀ condition, i = .skip condition →
      (m.withKey k b).holds condition = m.holds condition := by
    rintro condition rfl
    cases condition with
    | keyHeld | keyUp => cases hi
    | _ => rfl
  cases i with
  | ret | call target | skip condition | alu op x y => exact hbranch rfl hholds opcode address
  | _ => rfl

theorem ready?_withKey (hw : m.keypad.waiting = none) (k : Key) (b : Bool) :
    (m.withKey k b).ready? = m.ready?.map fun d => d.withKey k b := by
  cases hf : m.fault with
  | some f =>
    have hf' : (m.withKey k b).fault = some f := hf
    rw [ready?_of_halted hf, ready?_of_halted hf']
    rfl
  | none =>
    have hf' : (m.withKey k b).fault = none := hf
    have hw' : (m.withKey k b).keypad.waiting = none := hw
    rw [ready?_of_running hf hw, ready?_of_running hf' hw']
    rfl

theorem step_withKey (hw : m.keypad.waiting = none) (k : Key) (b : Bool)
    (h : m.upcoming?.any Instruction.asksKeys = false) :
    (m.withKey k b).step = (m.step.1, m.step.2.withKey k b) := by
  refine step_map (φ := fun d => d.withKey k b) (ready?_withKey hw k b) fun d hd => ?_
  rw [upcoming?_of_ready hd] at h
  refine (onDevices_withKey k b).cycle d fun i hi => ?_
  rw [hi] at h
  exact execute_withKey k b h d.fetch d.pc

theorem perform_setKey {index : Int} (hindex : Keypad.key? index = some k) (m : Machine)
    (b : Bool) : m.perform (.setKey index b) = (m.withKey k b).silent := by
  simp only [perform, setKey, Keypad.setKey, hindex]
  rfl

theorem interchange_setKey_step {index : Int} (hw : m.keypad.waiting = none)
    (hindex : Keypad.key? index = some k) (b : Bool)
    (h : m.upcoming?.any Instruction.asksKeys = false) :
    m.Interchange (.setKey index b) .step := by
  have hset := perform_step_of_map (φ := fun d => d.withKey k b) (fun _ => rfl)
    (step_withKey hw k b h)
  have hreply := congrArg Prod.fst hset
  have hstep := congrArg Prod.snd hset
  constructor
  · rw [perform_setKey hindex, perform_setKey hindex]
    exact hstep.symm
  · rw [perform_setKey hindex, perform_setKey hindex]
    rfl
  · rw [perform_setKey hindex]
    exact hreply

/-! Whole runs of steps and ticks. -/

/-- All but the timers. -/
def untimed (m : Machine) : Machine := m.setTimers .stopped

theorem quiet_of_untimed {ds es : List Machine} (h : es.map untimed = ds.map untimed)
    (hq : ∀ d ∈ ds, (Instruction.decode d.fetch).any Instruction.usesTimers = false) :
    ∀ e ∈ es, (Instruction.decode e.fetch).any Instruction.usesTimers = false := by
  intro e he
  have hmem : e.untimed ∈ ds.map untimed := h ▸ List.mem_map_of_mem he
  obtain ⟨d, hd, hsame⟩ := List.mem_map.mp hmem
  have hfetch : d.untimed.fetch = e.untimed.fetch := congrArg fetch hsame
  have hword : d.fetch = e.fetch := hfetch
  rw [← hword]
  exact hq d hd

theorem upcoming?_tick (m : Machine) : m.tick.upcoming? = m.upcoming? := by
  have hready : m.tick.ready? = m.ready?.map fun d => d.setTimers m.timers.tick :=
    m.ready?_setTimers _
  rw [upcoming?, hready, upcoming?]
  cases m.ready? with
  | none => rfl
  | some d => rfl

theorem upcoming?_of_executed
    (hq : ∀ d ∈ m.executed (.step :: ops),
      (Instruction.decode d.fetch).any Instruction.usesTimers = false) :
    m.upcoming?.any Instruction.usesTimers = false := by
  cases hd : m.ready? with
  | none =>
    rw [upcoming?, hd]
    rfl
  | some d =>
    rw [upcoming?_of_ready hd]
    apply hq
    rw [executed_of_ready hd]
    exact List.mem_cons_self

/-- A tick in front of a step does what it does behind it. -/
theorem tick_step (h : m.upcoming?.any Instruction.usesTimers = false) (ops : List Operation) :
    m.after (.tick :: .step :: ops) = m.after (.step :: .tick :: ops) ∧
      (m.executed (.tick :: .step :: ops)).map untimed =
        (m.executed (.step :: .tick :: ops)).map untimed := by
  have hswap := (interchange_tick_step h).last
  have hlast : m.tick.step.2 = m.step.2.tick := hswap.symm
  refine ⟨congrArg (after · ops) hlast, ?_⟩
  have hready : m.tick.ready? = m.ready?.map fun d => d.setTimers m.timers.tick :=
    m.ready?_setTimers _
  rw [executed_tick]
  cases hd : m.ready? with
  | none =>
    rw [hd] at hready
    rw [executed_of_not_ready hready, executed_of_not_ready hd]
    rfl
  | some d =>
    rw [hd] at hready
    rw [step_of_ready hready, step_of_ready hd] at hlast
    rw [executed_of_ready hready, executed_of_ready hd, executed_tick, List.map_cons, List.map_cons]
    exact congrArg₂ (· :: ·) rfl (congrArg (fun m => (m.executed ops).map untimed) hlast)

/-- Every order of the same steps and ticks executes the same instructions, if none of them uses a
timer, and comes to the same machine. -/
theorem after_perm (h : ops.Perm others) (hops : ∀ op ∈ ops, op = .step ∨ op = .tick)
    (hq : ∀ d ∈ m.executed ops,
      (Instruction.decode d.fetch).any Instruction.usesTimers = false) :
    m.after others = m.after ops ∧
      (m.executed others).map untimed = (m.executed ops).map untimed := by
  induction h generalizing m with
  | nil => exact ⟨rfl, rfl⟩
  | @cons op ops others _ ih =>
    have htail : ∀ o ∈ ops, o = .step ∨ o = .tick := fun o ho => hops o (by simp [ho])
    rcases hops op (by simp) with rfl | rfl
    · simp only [after_cons, perform_step]
      cases hd : m.ready? with
      | none =>
        rw [executed_of_not_ready hd] at hq
        rw [executed_of_not_ready hd, executed_of_not_ready hd, step_of_not_ready hd]
        exact ih htail hq
      | some d =>
        rw [executed_of_ready hd] at hq
        rw [executed_of_ready hd, executed_of_ready hd, step_of_ready hd]
        obtain ⟨hlast, hsame⟩ := ih htail (List.forall_mem_cons.mp hq).2
        exact ⟨hlast, congrArg (d.untimed :: ·) hsame⟩
    · exact ih htail hq
  | swap first second ops =>
    rcases hops second (by simp) with rfl | rfl
    · rcases hops first (by simp) with rfl | rfl
      · exact ⟨rfl, rfl⟩
      · exact tick_step (upcoming?_of_executed hq) ops
    · rcases hops first (by simp) with rfl | rfl
      · have hquiet := upcoming?_of_executed (m := m.tick) hq
        rw [upcoming?_tick] at hquiet
        obtain ⟨hlast, hsame⟩ := tick_step hquiet ops
        exact ⟨hlast.symm, hsame.symm⟩
      · exact ⟨rfl, rfl⟩
  | trans h _ ih ih' =>
    obtain ⟨hlast, hsame⟩ := ih hops hq
    obtain ⟨hlast', hsame'⟩ := ih' (fun op hop => hops op (h.mem_iff.mpr hop))
      (quiet_of_untimed hsame hq)
    exact ⟨hlast'.trans hlast, hsame'.trans hsame⟩

theorem key?_of_range {index : Int} (h : 0 ≤ index ∧ index < 16) :
    ∃ k, Keypad.key? index = some k := ⟨⟨index.toNat, by omega⟩, dif_pos h⟩

/-- A tick and a step may change places unless the instruction uses a timer, whether the machine
runs, waits or has halted. So may the press or release of a key and a step, while no key is waited
for, unless the instruction asks for keys. Hence the same steps and ticks lead to the same machine
in every order, and execute the same instructions, unless one of these uses a timer. -/
theorem host_and_program_interleave (m : Machine) :
    (m.upcoming?.any Instruction.usesTimers = false → m.Interchange .tick .step) ∧
    (∀ index b, 0 ≤ index ∧ index < 16 → m.keypad.waiting = none →
      m.upcoming?.any Instruction.asksKeys = false → m.Interchange (.setKey index b) .step) ∧
    ∀ ops others, (∀ op ∈ ops, op = .step ∨ op = .tick) → ops.Perm others →
      (∀ d ∈ m.executed ops,
        (Instruction.decode d.fetch).any Instruction.usesTimers = false) →
      m.after others = m.after ops ∧
        (m.executed others).map untimed = (m.executed ops).map untimed := by
  refine ⟨interchange_tick_step, fun index b hindex hw hq => ?_, fun ops others hops hp hq => ?_⟩
  · obtain ⟨k, hk⟩ := key?_of_range hindex
    exact interchange_setKey_step hw hk b hq
  · exact after_perm hp hops hq

/-- A program that counts in the second register, with both timers running. -/
def countUp : List Operation :=
  [.poke 0x200 0x71, .poke 0x201 0x01, .poke 0x202 0x12, .poke 0x203 0x00, .setDelay 3, .setSound 2]

set_option maxRecDepth 100000 in
/-- It counts to two in three steps, and both timers run out in three ticks. -/
theorem count_up_interleaves :
    let m := (initial {} (.listed [0] 0)).after countUp
    let ops : List Operation := [.step, .tick, .step, .tick, .tick, .step]
    let others : List Operation := [.tick, .tick, .tick, .step, .step, .step]
    (m.upcoming?.any Instruction.usesTimers = false ∧ m.Interchange .tick .step) ∧
      (m.keypad.waiting = none ∧ m.upcoming?.any Instruction.asksKeys = false ∧
        m.Interchange (.setKey 7 true) .step) ∧
      (∀ d ∈ m.executed ops,
        (Instruction.decode d.fetch).any Instruction.usesTimers = false) ∧
      (m.after others = m.after ops ∧
        (m.executed others).map untimed = (m.executed ops).map untimed) ∧
      (m.after ops).register 1 = 2 ∧ (m.after ops).timers = .stopped := by
  intro m ops others
  have hrun : (m.upcoming?.any Instruction.usesTimers = false ∧ m.keypad.waiting = none ∧
      m.upcoming?.any Instruction.asksKeys = false) ∧
      (∀ d ∈ m.executed ops,
        (Instruction.decode d.fetch).any Instruction.usesTimers = false) ∧
      (m.after ops).register 1 = 2 ∧ (m.after ops).timers = .stopped := by decide +kernel
  obtain ⟨⟨htimers, hw, hkeys⟩, hquiet, hend⟩ := hrun
  obtain ⟨htick, hkey, hperm⟩ := host_and_program_interleave m
  exact ⟨⟨htimers, htick htimers⟩, ⟨hw, hkeys, hkey 7 true (by decide) hw hkeys⟩, hquiet,
    hperm ops others (by simp [ops]) (by decide) hquiet, hend⟩

end Machine

end Chip8
