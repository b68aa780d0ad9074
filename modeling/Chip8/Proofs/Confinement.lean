import Chip8.Proofs.Executions
import Chip8.Proofs.Flow

/-! How far a program can go. Beyond memory there are no instructions, so one that gets there halts
before it gets any further, and the addresses that it counts with never wrap. -/
namespace Chip8.Machine

variable {m d : Machine} {i : Instruction} {op : Operation} {ops : List Operation}

/-- Where a program that is left to itself can be. -/
structure Confined (m : Machine) : Prop where
  calls : ∀ a ∈ m.stack.live, a.toNat ≤ 0x1001
  running : m.fault = none → m.pc.toNat ≤ 0x10FE
  halted : m.pc.toNat ≤ 0x1100

theorem toNat_pc_add (h : m.pc.toNat ≤ 0x10FE) :
    (m.pc + 1).toNat = m.pc.toNat + 1 ∧ (m.pc + 2).toNat = m.pc.toNat + 2 ∧
      (m.pc + 2 + 2).toNat = m.pc.toNat + 4 := by
  have h1 : (m.pc + 1).toNat = (m.pc.toNat + 1) % 65536 := UInt16.toNat_add m.pc 1
  have h2 : (m.pc + 2).toNat = (m.pc.toNat + 2) % 65536 := UInt16.toNat_add m.pc 2
  have h4 : (m.pc + 2 + 2).toNat = ((m.pc + 2).toNat + 2) % 65536 := UInt16.toNat_add (m.pc + 2) 2
  omega

theorem toNat_add_byte {a : UInt16} (h : a.toNat < 4096) (b : UInt8) :
    (a + b.toUInt16).toNat = a.toNat + b.toNat := by
  have hb := b.toNat_lt
  rw [UInt16.toNat_add, UInt8.toNat_toUInt16]
  omega

theorem fetch_outside (h : 0x1000 ≤ m.pc.toNat) (hlast : m.pc.toNat < 0xFFFF) : m.fetch = 0 := by
  have hnext : (m.pc.toNat + 1) % 65536 = m.pc.toNat + 1 := by omega
  apply UInt16.toNat_inj.mp
  rw [toNat_fetch, hnext, m.memory.read_outside (by omega), m.memory.read_outside (by omega)]
  rfl

theorem decode_outside (h : 0x1000 ≤ m.pc.toNat) (hlast : m.pc.toNat < 0xFFFF) :
    Instruction.decode m.fetch = none := by
  rw [fetch_outside h hlast]
  rfl

theorem pc_lt_of_instruction (hi : Instruction.decode m.fetch = some i)
    (h : m.pc.toNat ≤ 0x10FE) : m.pc.toNat < 0x1000 := by
  by_contra hout
  cases (decode_outside (m := m) (by omega) (by omega)).symm.trans hi

theorem cycle_outside (h : 0x1000 ≤ m.pc.toNat) (hlast : m.pc.toNat < 0xFFFF) :
    m.cycle.fault = some ⟨.unrecognizedOpcode, 0, m.pc⟩ := by
  rw [cycle_of_no_instruction (decode_outside h hlast), fetch_outside h hlast]
  exact fault_halt _ _

/-! One instruction. -/

theorem confined_nextPc (hm : m.Confined) (hi : Instruction.decode m.fetch = some i)
    (h : m.pc.toNat < 0x1000) : ((m.setPc (m.pc + 2)).nextPc (some i)).toNat ≤ 0x10FE := by
  obtain ⟨-, hpast, hskip⟩ := toNat_pc_add (m := m) (by omega)
  have htarget : ∀ a, i.target? = some a → a.toNat < 4096 := fun a => Instruction.target_lt hi
  have hstay : (m.pc + 2).toNat ≤ 0x10FE := by omega
  cases i with
  | jump target =>
    have := htarget target rfl
    change target.toNat ≤ _
    omega
  | call target =>
    have := htarget target rfl
    simp only [nextPc]
    split
    · exact hstay
    · omega
  | ret =>
    change (m.stack.live.getLast?.getD (m.pc + 2)).toNat ≤ _
    cases hlast : m.stack.live.getLast? with
    | none => exact hstay
    | some a =>
      have := hm.calls a (List.mem_of_getLast? hlast)
      change a.toNat ≤ _
      omega
  | skip condition =>
    simp only [nextPc]
    split
    · change (m.pc + 2 + 2).toNat ≤ _
      omega
    · exact hstay
  | jumpOffset base =>
    have hbase := htarget base rfl
    have hbyte := (m.register 0).toNat_lt
    have hsum := toNat_add_byte hbase (m.register 0)
    change (base + (m.register 0).toUInt16).toNat ≤ _
    omega
  | _ => exact hstay

theorem confined_calls (hm : m.Confined) (i : Option Instruction) (h : m.pc.toNat < 0x1000) :
    ∀ a ∈ callsAfter (m.pc + 2) m.stack.live i, a.toNat ≤ 0x1001 := by
  obtain ⟨-, hpast, -⟩ := toNat_pc_add (m := m) (by omega)
  intro a ha
  unfold callsAfter at ha
  split at ha
  · exact hm.calls a (List.dropLast_subset _ ha)
  · split at ha
    · rcases List.mem_append.mp ha with ha | ha
      · exact hm.calls a ha
      · rw [List.mem_singleton.mp ha]
        omega
    · exact hm.calls a ha
  · exact hm.calls a ha

theorem confined_cycle (hm : m.Confined) (hf : m.fault = none) : m.cycle.Confined := by
  have hpc := hm.running hf
  obtain ⟨-, hpast, -⟩ := toNat_pc_add hpc
  cases hi : Instruction.decode m.fetch with
  | none =>
    have hhalt := cycle_of_no_instruction hi
    constructor
    · rw [hhalt]
      exact hm.calls
    · intro hnone
      rw [hhalt] at hnone
      cases hnone.symm.trans (fault_halt _ _)
    · rw [hhalt]
      change (m.pc + 2).toNat ≤ _
      omega
  | some i =>
    have hin := pc_lt_of_instruction hi hpc
    have hnext : m.cycle.pc.toNat ≤ 0x10FE := by
      rw [cycle_pc, hi]
      exact confined_nextPc hm hi hin
    constructor
    · rw [cycle_live]
      exact confined_calls hm _ hin
    · exact fun _ => hnext
    · omega

/-! A whole run. -/

theorem confined_ready (hm : m.Confined) (h : m.ready? = some d) : d.Confined := by
  have hf := (ready?_cases h).1
  obtain ⟨v, p, rfl⟩ := ready?_eq_some h
  exact ⟨hm.calls, hm.running, hm.halted⟩

theorem confined_step (hm : m.Confined) : m.step.2.Confined := by
  rcases m.step_cases with ⟨d, hd, hs⟩ | ⟨_, hs⟩
  · rw [hs]
    exact confined_cycle (confined_ready hm hd) (ready?_fault hd)
  · rw [hs]
    exact hm

theorem confined_restart (h : m.stack.live = []) (hpc : m.pc = 0x200) : m.Confined := by
  have hstart : m.pc.toNat = 0x200 := by rw [hpc]; rfl
  constructor
  · rw [h]
    nofun
  · omega
  · omega

theorem confined_perform (hb : op.isBatch = false) (hop : ∀ n, op ≠ .setPc n) (hm : m.Confined) :
    (m.perform op).2.Confined := by
  rcases op.step_or_reset_or_other with rfl | rfl | rfl | ⟨hs, hr, hc⟩
  · exact confined_step hm
  · exact confined_restart rfl rfl
  · exact confined_restart rfl rfl
  · obtain ⟨_, _, a, _, _, _, _, h, ha⟩ := perform_host (m := m) hb hs hr hc
    obtain rfl := ha hop
    rw [h]
    exact ⟨hm.calls, hm.running, hm.halted⟩

theorem confined_initial (config : Config) (source : Random.Source) :
    (initial config source).Confined := confined_restart rfl rfl

theorem confined_after (hm : m.Confined) (hops : ∀ op ∈ ops, ∀ n, op ≠ .setPc n) :
    (m.after ops).Confined :=
  after_invariant (fun _ _ => confined_perform) (fun _ => nofun) (fun _ => nofun) hops hm

theorem confined_executions (hm : m.Confined) (hops : ∀ op ∈ ops, ∀ n, op ≠ .setPc n) :
    ∀ d ∈ m.executions ops, d.Confined ∧ d.fault = none :=
  forall_executions (fun _ _ => confined_perform)
    (fun _ _ hm hd => ⟨confined_ready hm hd, ready?_fault hd⟩) (fun _ => nofun) (fun _ => nofun)
    hops hm

/-- Nothing is executed on a machine that has halted. -/
theorem executed_of_halted {f : Fault} (hf : m.fault = some f)
    (hops : ∀ op ∈ ops, op.isBatch = false ∧ op ≠ .reset ∧ op ≠ .resetCpu) :
    m.executed ops = [] := by
  apply List.eq_nil_iff_forall_not_mem.mpr
  refine forall_executed (P := fun n => n.fault = some f) (R := fun _ => False)
    (fun _ _ => fault_perform) (fun n d hn hd => ?_) hops hf
  cases (ready?_of_halted hn).symm.trans hd

theorem count_outside_executed (hm : m.Confined) (hops : ∀ op ∈ ops, op.isBatch = false ∧
      (∀ n, op ≠ .setPc n) ∧ op ≠ .reset ∧ op ≠ .resetCpu) :
    (m.executed ops).countP (fun d => 0x1000 ≤ d.pc.toNat) ≤ 1 := by
  induction ops generalizing m with
  | nil => exact Nat.zero_le 1
  | cons op ops ih =>
    obtain ⟨hb, hpc, hresets⟩ := hops op (by simp)
    have htail := fun o ho => hops o (List.mem_cons_of_mem op ho)
    rcases m.executed_cases op ops with ⟨d, -, hd, hx⟩ | ⟨-, hx⟩
    · have hconfined := confined_ready hm hd
      have hrunning := ready?_fault hd
      rw [hx, List.countP_cons]
      by_cases hout : 0x1000 ≤ d.pc.toNat
      · -- This one halts the machine, so that no other follows it.
        have hhalt := cycle_outside hout (by have := hconfined.running hrunning; omega)
        rw [executed_of_halted hhalt fun o ho => ⟨(htail o ho).1, (htail o ho).2.2⟩]
        simp [hout]
      · rw [if_neg (by simpa using hout)]
        exact ih (confined_cycle hconfined hrunning) htail
    · rw [hx]
      exact ih (confined_perform hb hpc hm) htail

theorem count_outside_executions (hm : m.Confined)
    (hops : ∀ op ∈ ops, (∀ n, op ≠ .setPc n) ∧ op ≠ .reset ∧ op ≠ .resetCpu) :
    (m.executions ops).countP (fun d => 0x1000 ≤ d.pc.toNat) ≤ 1 := by
  rw [← executed_singles]
  refine count_outside_executed hm fun op h => ?_
  exact single_of_mem_singles
    (Q := fun op => (∀ n, op ≠ .setPc n) ∧ op ≠ .reset ∧ op ≠ .resetCpu)
    ⟨fun _ => nofun, nofun, nofun⟩ ⟨fun _ => nofun, nofun, nofun⟩ hops op h

theorem step_outside (h : 0x1000 ≤ m.pc.toNat) (hlast : m.pc.toNat < 0xFFFF)
    (hs : m.step.1 = true) : m.step.2.fault = some ⟨.unrecognizedOpcode, 0, m.pc⟩ := by
  obtain ⟨d, hd⟩ := ready?_of_executed hs
  rw [step_of_ready hd]
  obtain ⟨v, p, rfl⟩ := ready?_eq_some hd
  exact cycle_outside h hlast

theorem cycle_pc_jumpOffset {base : UInt16}
    (hi : Instruction.decode m.fetch = some (.jumpOffset base)) :
    m.cycle.pc.toNat = base.toNat + (m.register 0).toNat := by
  rw [cycle_pc, hi]
  exact toNat_add_byte (Instruction.target_lt hi rfl) _

/-- A program that the host does not move itself stays in memory or just behind it, and so do the
places that it returns to. It has halted by 0x1100, and no address that it counts up to needs more
than sixteen bits. An instruction at 0x1000 or beyond is the word zero and halts the machine there,
so between resets it is the only one. -/
theorem program_stays_near_memory (config : Config) (source : Random.Source)
    (ops : List Operation) (hops : ∀ op ∈ ops, ∀ n, op ≠ .setPc n) :
    let start := initial config source
    let m := start.after ops
    ((∀ a ∈ m.stack.live, a.toNat ≤ 0x1001) ∧ (m.fault = none → m.pc.toNat ≤ 0x10FE) ∧
      (m.fault ≠ none → m.pc.toNat ≤ 0x1100)) ∧
    (∀ d ∈ start.executions ops, d.pc.toNat ≤ 0x10FE ∧ (d.pc + 1).toNat = d.pc.toNat + 1 ∧
      (d.pc + 2).toNat = d.pc.toNat + 2 ∧ (d.pc + 2 + 2).toNat = d.pc.toNat + 4 ∧
      ∀ base, Instruction.decode d.fetch = some (.jumpOffset base) →
        d.cycle.pc.toNat = base.toNat + (d.register 0).toNat) ∧
    (∀ d : Machine, 0x1000 ≤ d.pc.toNat → d.pc.toNat ≤ 0x10FE → d.step.1 = true →
      d.step.2.fault = some ⟨.unrecognizedOpcode, 0, d.pc⟩) ∧
    ∀ more, (∀ op ∈ more, (∀ n, op ≠ .setPc n) ∧ op ≠ .reset ∧ op ≠ .resetCpu) →
      (m.executions more).countP (fun d => 0x1000 ≤ d.pc.toNat) ≤ 1 := by
  intro start m
  have hstart : start.Confined := confined_initial config source
  have hm : m.Confined := confined_after hstart hops
  refine ⟨⟨hm.calls, hm.running, fun _ => hm.halted⟩, fun d hd => ?_, fun d h hle hs => ?_,
    fun more hmore => count_outside_executions hm hmore⟩
  · obtain ⟨hconfined, hrunning⟩ := confined_executions hstart hops d hd
    have hpc := hconfined.running hrunning
    obtain ⟨hnext, hpast, hskip⟩ := toNat_pc_add hpc
    exact ⟨hpc, hnext, hpast, hskip, fun base => cycle_pc_jumpOffset⟩
  · exact step_outside h (by omega) hs

/-- A program that goes as far as a jump can take it. -/
def farJump : List Operation :=
  [.poke 0x200 0x60, .poke 0x201 0xFF, .poke 0x202 0xBF, .poke 0x203 0xFF, .run 2]

set_option maxRecDepth 100000 in
/-- It gets to 0x10FE, and halts with the one instruction that it executes there. -/
theorem far_jump_halts :
    let start := initial {} (.listed [0] 0)
    let m := start.after farJump
    let more : List Operation := [.run 5, .tick, .step]
    (∀ op ∈ farJump, ∀ n, op ≠ .setPc n) ∧ m.pc.toNat = 0x10FE ∧
      (∀ d ∈ start.executions farJump, d.pc.toNat ≤ 0x10FE) ∧ m.step.1 = true ∧
      m.step.2.fault = some ⟨.unrecognizedOpcode, 0, m.pc⟩ ∧
      (m.after more).pc.toNat = 0x1100 ∧ (m.executions more).length = 1 ∧
      (m.executions more).countP (fun d => 0x1000 ≤ d.pc.toNat) ≤ 1 := by
  intro start m more
  have hops : ∀ op ∈ farJump, ∀ n, op ≠ .setPc n := by simp [farJump]
  have hrun : m.pc.toNat = 0x10FE ∧ m.step.1 = true ∧ (m.after more).pc.toNat = 0x1100 ∧
      (m.executions more).length = 1 := by decide +kernel
  obtain ⟨hpc, hs, hlast, hone⟩ := hrun
  obtain ⟨-, hexecuted, hhalt, hcount⟩ := program_stays_near_memory {} (.listed [0] 0) farJump hops
  exact ⟨hops, hpc, fun d hd => (hexecuted d hd).1, hs, hhalt m (by omega) (by omega) hs, hlast,
    hone, hcount more (by simp [more])⟩

end Chip8.Machine
