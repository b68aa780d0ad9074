import Chip8.Proofs.Spending
import Chip8.Proofs.Waiting

/-! Changes of a machine that make no difference to what it runs: made before or after, they come
to the same machine, and the answers are the same. -/
namespace Chip8.Machine

/-- A change that leaves fault and keypad alone lets the same key be delivered. -/
theorem ready?_map {φ : Machine → Machine} {m : Machine} (hf : (φ m).fault = m.fault)
    (hk : (φ m).keypad = m.keypad) (hd : ∀ r k, (φ m).delivered r k = φ (m.delivered r k)) :
    (φ m).ready? = m.ready?.map φ := by
  cases hm : m.fault with
  | some f =>
    rw [ready?_of_halted hm, ready?_of_halted (hf.trans hm)]
    rfl
  | none =>
    cases hw : m.keypad.waiting with
    | none =>
      rw [ready?_of_running hm hw, ready?_of_running (hf.trans hm) (hk ▸ hw)]
      rfl
    | some r =>
      rw [ready?_of_waiting hm hw, ready?_of_waiting (hf.trans hm) (hk ▸ hw), Option.map_map, hk]
      exact congrArg (m.keypad.firstHeld?.map ·) (funext fun k => hd r k)

theorem step_map {φ : Machine → Machine} {m : Machine} (hready : (φ m).ready? = m.ready?.map φ)
    (hcycle : ∀ d, m.ready? = some d → (φ d).cycle = φ d.cycle) :
    (φ m).step = (m.step.1, φ m.step.2) := by
  rcases m.step_cases with ⟨d, hd, hs⟩ | ⟨hd, hs⟩
  · rw [hd] at hready
    rw [step_of_ready hready, hs, hcycle d hd]
  · rw [hd] at hready
    rw [step_of_not_ready hready, hs]

theorem holds_map {φ : Machine → Machine} {m : Machine} (hv : (φ m).v = m.v)
    (hk : (φ m).keypad = m.keypad) (condition : Skip) :
    (φ m).holds condition = m.holds condition := by
  cases condition <;> simp only [holds, register, hv, hk]

/-- A change of the devices alone. A branching instruction neither sees it nor undoes it. -/
structure OnDevices (φ : Machine → Machine) : Prop where
  v : ∀ m, (φ m).v = m.v
  pc : ∀ m, (φ m).pc = m.pc
  stack : ∀ m, (φ m).stack = m.stack
  config : ∀ m, (φ m).config = m.config
  fetch : ∀ m, (φ m).fetch = m.fetch
  setRegister : ∀ m x b, (φ m).setRegister x b = φ (m.setRegister x b)
  setPc : ∀ m a, (φ m).setPc a = φ (m.setPc a)
  setStack : ∀ m s, (φ m).setStack s = φ (m.setStack s)
  halt : ∀ m f, (φ m).halt f = φ (m.halt f)
  countStep : ∀ m, (φ m).countStep = φ m.countStep

namespace OnDevices

variable {φ : Machine → Machine}

theorem stackFault (h : OnDevices φ) (m : Machine) (kind : FaultKind) (opcode address : UInt16) :
    (φ m).stackFault kind opcode address = φ (m.stackFault kind opcode address) := by
  unfold Machine.stackFault
  rw [h.config]
  split
  · exact h.halt m _
  · rfl

theorem execute (h : OnDevices φ) (m : Machine) {i : Instruction} (hi : branches i = true)
    (hholds : ∀ condition, i = .skip condition → (φ m).holds condition = m.holds condition)
    (opcode address : UInt16) :
    (φ m).execute opcode address i = φ (m.execute opcode address i) := by
  cases i with
  | ret =>
    simp only [Machine.execute, h.stack]
    cases m.stack.pop? with
    | none => exact h.stackFault m _ opcode address
    | some popped => exact (congrArg (Machine.setPc · _) (h.setStack m _)).trans (h.setPc _ _)
  | call target =>
    simp only [Machine.execute, h.stack, h.pc, h.config]
    cases m.stack.push? m.pc with
    | none =>
      simp only []
      split
      · exact h.halt m _
      · exact h.setPc m target
    | some pushed => exact (congrArg (Machine.setPc · _) (h.setStack m _)).trans (h.setPc _ _)
  | skip condition =>
    simp only [Machine.execute, hholds condition rfl]
    split
    · rw [skipNext, h.pc, h.setPc, skipNext]
    · rfl
  | alu op x y =>
    have hx : ∀ z, (φ m).register z = m.register z := fun z => by rw [register, h.v, register]
    simp only [Machine.execute, alu, hx, h.setRegister]
    cases op.flag? (m.register x) (m.register y) with
    | none => rfl
    | some b => exact h.setRegister _ _ _
  | _ => cases hi

/-- It commutes with a whole cycle if it does so with the instruction. -/
theorem cycle (h : OnDevices φ) (m : Machine)
    (hx : ∀ i, Instruction.decode m.fetch = some i →
      (φ (m.setPc (m.pc + 2))).execute m.fetch m.pc i =
        φ ((m.setPc (m.pc + 2)).execute m.fetch m.pc i)) : (φ m).cycle = φ m.cycle := by
  cases hi : Instruction.decode m.fetch with
  | none =>
    rw [cycle_of_no_instruction hi, cycle_of_no_instruction ((h.fetch m).symm ▸ hi), h.fetch, h.pc,
      h.setPc, h.halt, h.countStep]
  | some i =>
    rw [cycle_of_instruction hi, cycle_of_instruction ((h.fetch m).symm ▸ hi), h.fetch, h.pc,
      h.setPc, hx i hi, h.countStep]

end OnDevices

/-- What single replies keep, those to a whole run keep. -/
theorem sameAnswer_performAll {R : Machine → Machine → Prop}
    (h : ∀ m n op, R m n → SameAnswer R (m.perform op) (n.perform op)) {m n : Machine}
    (hr : R m n) (ops : List Operation) : SameAnswer R (m.performAll ops) (n.performAll ops) := by
  induction ops generalizing m n with
  | nil => exact ⟨rfl, hr⟩
  | cons op ops ih =>
    obtain ⟨hreply, hnext⟩ := h m n op hr
    obtain ⟨hreplies, hlast⟩ := ih hnext
    refine ⟨?_, hlast⟩
    simp only [performAll, hreply, hreplies]

/-- Two machines in `R` answer alike and are in `R` again, as long as the first of them comes to
machines with `P`, which no others lead to. -/
structure Follows (R : Machine → Machine → Prop) (P : Machine → Prop) : Prop where
  step : ∀ {m n}, R m n → P m.step.2 → SameAnswer R m.step n.step
  tick : ∀ {m n}, R m n → R m.tick n.tick
  faults : ∀ {m n}, R m n → n.faults = m.faults
  blocked : ∀ {m n}, R m n → n.blocked = m.blocked
  before_step : ∀ m, P m.step.2 → P m
  before_tick : ∀ m, P m.tick → P m

namespace Follows

variable {R : Machine → Machine → Prop} {P : Machine → Prop} {m n : Machine} {op : Operation}
  {ops : List Operation}

open Classical in
/-- To come to machines without `P` costs, and there is nothing to spend. -/
theorem spends (h : Follows R P) : Spends (fun d => if P d.cycle then 0 else 1)
    fun k m n => k = 0 ∧ R m n where
  cycle := by
    rintro k m n d hd ⟨hk, hr⟩
    obtain ⟨hcost, rfl⟩ := Nat.add_eq_zero_iff.mp hk
    have hp : P d.cycle := by
      by_contra hp
      rw [if_neg hp] at hcost
      cases hcost
    have hstep := h.step hr
    rw [step_of_ready hd] at hstep ⊢
    exact ⟨rfl, (hstep hp).2⟩
  tick hr := ⟨hr.1, h.tick hr.2⟩
  faults hr := h.faults hr.2
  blocked hr := h.blocked hr.2

open Classical in
theorem price_eq_zero (h : Follows R P) (hops : ∀ op ∈ ops, op = .step ∨ op = .tick)
    (hp : P (m.after ops)) :
    P m ∧ price (fun d => if P d.cycle then 0 else 1) (m.executed ops) = 0 := by
  induction ops generalizing m with
  | nil => exact ⟨hp, rfl⟩
  | cons op ops ih =>
    obtain ⟨hnext, hzero⟩ := ih (m := (m.perform op).2) (fun o ho => hops o (by simp [ho])) hp
    rcases hops op (by simp) with rfl | rfl
    · refine ⟨h.before_step m hnext, ?_⟩
      rw [perform_step] at hnext hzero
      rcases m.step_cases with ⟨d, hd, hs⟩ | ⟨hd, hs⟩
      · rw [hs] at hnext hzero
        rw [executed_of_ready hd, price, List.map_cons, List.sum_cons, if_pos hnext, Nat.zero_add]
        exact hzero
      · rw [hs] at hzero
        rw [executed_of_not_ready hd]
        exact hzero
    · exact ⟨h.before_tick m hnext, hzero⟩

/-- Steps, ticks and batches of them get the same reply from both. -/
theorem perform (h : Follows R P) (hr : R m n) (hop : op = .step ∨ op = .tick ∨ op.isBatch = true)
    (hp : P (m.perform op).2) : SameAnswer R (m.perform op) (n.perform op) := by
  rw [← after_unrolled] at hp
  obtain ⟨-, hzero⟩ := h.price_eq_zero (step_or_tick_of_mem_unrolled hop) hp
  obtain ⟨hreply, -, hlast⟩ := h.spends.perform (k := 0) hop ⟨by rw [hzero], hr⟩
  exact ⟨hreply, hlast⟩

end Follows

/-- `φ` commutes with steps and ticks that lead to machines with `P`, which no others lead to. -/
structure Commutes (φ : Machine → Machine) (P : Machine → Prop) : Prop where
  step : ∀ m, P m.step.2 → (φ m).step = (m.step.1, φ m.step.2)
  tick : ∀ m, (φ m).tick = φ m.tick
  faults : ∀ m, (φ m).faults = m.faults
  blocked : ∀ m, (φ m).blocked = m.blocked
  before_step : ∀ m, P m.step.2 → P m
  before_tick : ∀ m, P m.tick → P m

namespace Commutes

variable {φ : Machine → Machine} {P : Machine → Prop} {m : Machine} {op : Operation}

theorem follows (h : Commutes φ P) : Follows (fun m n => n = φ m) P where
  step := by
    rintro m _ rfl hp
    rw [h.step m hp]
    exact ⟨rfl, rfl⟩
  tick := by
    rintro m _ rfl
    exact h.tick m
  faults := by
    rintro m _ rfl
    exact h.faults m
  blocked := by
    rintro m _ rfl
    exact h.blocked m
  before_step := h.before_step
  before_tick := h.before_tick

/-- Steps, ticks and batches of them give the same reply, with the change made before or after. -/
theorem perform (h : Commutes φ P) (hop : op = .step ∨ op = .tick ∨ op.isBatch = true)
    (hp : P (m.perform op).2) : (φ m).perform op = ((m.perform op).1, φ (m.perform op).2) := by
  obtain ⟨hreply, hlast⟩ := h.follows.perform rfl hop hp
  exact Prod.ext hreply hlast

end Commutes

/-! What the host may be refused. -/
section Refused

variable {φ : Machine → Machine} {m : Machine}

theorem map_set {α : Type} {set : Machine → α → Machine} (hs : ∀ a, set (φ m) a = φ (set m a))
    (result : Except HostError α) : result.map (set (φ m)) = (result.map (set m)).map φ := by
  cases result with
  | ok a => exact congrArg Except.ok (hs a)
  | error e => rfl

theorem perform_load_map (hm : (φ m).memory = m.memory)
    (hs : ∀ s, (φ m).setMemory s = φ (m.setMemory s)) (program : List UInt8) :
    (φ m).perform (.load program) =
      ((m.perform (.load program)).1, φ (m.perform (.load program)).2) := by
  have hload : (φ m).load program = (m.load program).map φ := by
    rw [load, hm]
    exact map_set hs _
  simp only [Machine.perform, hload]
  cases m.load program with
  | ok n => rfl
  | error e => rfl

theorem perform_setKey_map {index : Int} {down : Bool}
    (hk : (φ m).keypad.setKey (φ m).config.strict index down =
      m.keypad.setKey m.config.strict index down)
    (hs : ∀ p, (φ m).setKeypad p = φ (m.setKeypad p)) :
    (φ m).perform (.setKey index down) =
      ((m.perform (.setKey index down)).1, φ (m.perform (.setKey index down)).2) := by
  have hset : (φ m).setKey index down = (m.setKey index down).map φ := by
    rw [setKey, hk]
    exact map_set hs _
  simp only [Machine.perform, hset]
  cases m.setKey index down with
  | ok n => rfl
  | error e => rfl

theorem perform_setNamedKey_map (hk : (φ m).keypad = m.keypad)
    (hs : ∀ p, (φ m).setKeypad p = φ (m.setKeypad p)) (layout : KeyLayout) (name : String)
    (down : Bool) : (φ m).perform (.setNamedKey layout name down) =
      ((m.perform (.setNamedKey layout name down)).1,
        φ (m.perform (.setNamedKey layout name down)).2) := by
  have hset : (φ m).setNamedKey layout name down = (m.setNamedKey layout name down).map φ := by
    rw [setNamedKey, hk]
    exact map_set hs _
  simp only [Machine.perform, hset]
  cases m.setNamedKey layout name down with
  | ok n => rfl
  | error e => rfl

end Refused

end Chip8.Machine
