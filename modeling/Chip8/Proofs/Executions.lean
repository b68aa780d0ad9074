import Chip8.Proofs.History

/-! The instructions that a run executes, one after the other. -/
namespace Chip8

/-- The machine that an instruction was executed on. -/
def Event.machine? : Event → Option Machine
  | .executed m => some m
  | _ => none

/-- A batch as it comes when nothing ends it early. -/
def Operation.attempts : Operation → List Operation
  | .run n => List.replicate n.toNat .step
  | .runFrame n => List.replicate n.toNat .step ++ [.tick]
  | .runPaced maxSteps pace =>
    if maxSteps ≤ 0 ∨ pace ≤ 0 then [] else schedule pace.toNat maxSteps.toNat
  | op => [op]

theorem Operation.mem_attempts {op o : Operation} (h : op ∈ o.attempts) :
    (o.isBatch = false ∧ op = o) ∨ op = .step ∨ op = .tick := by
  cases o with
  | run n => exact .inr (.inl (List.eq_of_mem_replicate h))
  | runFrame n =>
    rcases List.mem_append.mp h with h | h
    · exact .inr (.inl (List.eq_of_mem_replicate h))
    · exact .inr (.inr (List.mem_singleton.mp h))
  | runPaced maxSteps pace =>
    simp only [attempts] at h
    split at h
    · cases h
    · exact .inr (Machine.mem_schedule h)
  | _ => exact .inl ⟨rfl, List.mem_singleton.mp h⟩

namespace Machine

variable {m d : Machine} {op : Operation} {ops : List Operation}

/-- The instructions that single operations execute. -/
def executed (m : Machine) (ops : List Operation) : List Machine :=
  (m.events ops).filterMap Event.machine?

/-- The instructions that a run executes, those of its batches included. -/
def executions (m : Machine) (ops : List Operation) : List Machine :=
  (m.history ops).filterMap Event.machine?

theorem executed_of_ready (h : m.ready? = some d) :
    m.executed (.step :: ops) = d :: d.cycle.executed ops := by
  rw [executed, events, event_of_ready h, perform_step, step_of_ready h]
  rfl

theorem executed_of_not_ready (h : m.ready? = none) :
    m.executed (.step :: ops) = m.executed ops := by
  rw [executed, events, event_of_not_ready h, perform_step, step_of_not_ready h]
  rfl

theorem executed_of_ne_step (h : op ≠ .step) :
    m.executed (op :: ops) = (m.perform op).2.executed ops := by
  rw [executed, events, event_of_ne_step h]
  rfl

/-- Only a step that can be taken executes something. -/
theorem executed_cases (m : Machine) (op : Operation) (ops : List Operation) :
    (∃ d, op = .step ∧ m.ready? = some d ∧ m.executed (op :: ops) = d :: d.cycle.executed ops) ∨
      ((op = .step → m.ready? = none) ∧
        m.executed (op :: ops) = (m.perform op).2.executed ops) := by
  by_cases hs : op = .step
  · subst hs
    cases hready : m.ready? with
    | some d => exact .inl ⟨d, rfl, rfl, executed_of_ready hready⟩
    | none =>
      refine .inr ⟨fun _ => rfl, ?_⟩
      rw [executed_of_not_ready hready, perform_step, step_of_not_ready hready]
  · exact .inr ⟨fun h => absurd h hs, executed_of_ne_step hs⟩

theorem executed_tick (m : Machine) (ops : List Operation) :
    m.executed (.tick :: ops) = m.tick.executed ops := rfl

theorem executed_append (m : Machine) (ops more : List Operation) :
    m.executed (ops ++ more) = m.executed ops ++ (m.after ops).executed more := by
  rw [executed, events_append, List.filterMap_append]
  rfl

theorem executed_singles (m : Machine) (ops : List Operation) :
    m.executed (m.singles ops) = m.executions ops := by
  rw [executed, events_singles, executions]

theorem executions_cons (m : Machine) (op : Operation) (ops : List Operation) :
    m.executions (op :: ops) = m.executed (m.unrolled op) ++ (m.perform op).2.executions ops := by
  rw [executions, history, List.filterMap_append]
  rfl

/-- A machine that cannot step executes nothing, and ticks do not help it. -/
theorem executed_of_stuck (h : m.ready? = none) (hops : ∀ op ∈ ops, op = .step ∨ op = .tick) :
    m.executed ops = [] := by
  induction ops generalizing m with
  | nil => rfl
  | cons op ops ih =>
    have htail : ∀ o ∈ ops, o = .step ∨ o = .tick := fun o ho => hops o (by simp [ho])
    rcases hops op (by simp) with rfl | rfl
    · rw [executed_of_not_ready h]
      exact ih h htail
    · rw [executed_tick]
      exact ih (tick_ready?.mpr h) htail

/-- Behind its steps a schedule has one tick at most. -/
theorem schedule_eq (pace n : Nat) : ∃ rest, schedule pace n = pacedSteps pace n ++ rest ∧
    (rest = [] ∨ rest = [.tick]) := by
  rw [schedule]
  split
  · exact ⟨[], rfl, .inl rfl⟩
  · exact ⟨[.tick], rfl, .inr rfl⟩

theorem ready?_after_schedule (m : Machine) (pace n : Nat) :
    (m.after (schedule pace n)).ready? = none ↔ (m.after (pacedSteps pace n)).ready? = none := by
  obtain ⟨rest, hr, rfl | rfl⟩ := schedule_eq pace n
  · rw [hr, List.append_nil]
  · rw [hr, after_append]
    exact tick_ready?

theorem executed_schedule (m : Machine) (pace n : Nat) :
    m.executed (schedule pace n) = m.executed (pacedSteps pace n) := by
  obtain ⟨rest, hr, rfl | rfl⟩ := schedule_eq pace n
  · rw [hr, List.append_nil]
  · rw [hr, executed_append, executed_tick]
    exact List.append_nil _

/-- A paced run leaves nothing out that it could have executed. -/
theorem executed_schedule_of_stuck {pace n budget : Nat} (h : n ≤ budget)
    (hstuck : n < budget → (m.after (schedule pace n)).ready? = none) :
    m.executed (schedule pace n) = m.executed (schedule pace budget) := by
  rcases Nat.lt_or_eq_of_le h with hlt | rfl
  · obtain ⟨rest, hr⟩ := pacedSteps_split pace h
    have hrest : ∀ op ∈ rest, op = .step ∨ op = .tick := fun op ho =>
      mem_pacedSteps (n := budget) (by rw [hr]; exact List.mem_append_right _ ho)
    have hnone := (ready?_after_schedule m pace n).mp (hstuck hlt)
    rw [executed_schedule, executed_schedule, hr, executed_append,
      executed_of_stuck hnone hrest, List.append_nil]
  · rfl

theorem executed_unrolled (m : Machine) (op : Operation) :
    m.executed (m.unrolled op) = m.executed op.attempts := by
  cases op with
  | runPaced maxSteps pace =>
    simp only [unrolled, Operation.attempts]
    by_cases hb : maxSteps ≤ 0
    · rw [if_pos hb, if_pos (.inl hb)]
    · rw [if_neg hb]
      by_cases hp : pace ≤ 0
      · obtain ⟨ending, hr⟩ := runPaced_of_pace_nonpos (m := m) hp (show 0 < maxSteps by omega)
        rw [if_pos (.inr hp), hr, executed_schedule]
        rfl
      · -- The run may end before its budget, but only where no further step is possible.
        rw [if_neg (by omega)]
        obtain ⟨-, hpaced⟩ := runPaced_paced (m := m) (show 1 ≤ pace by omega)
          (show 0 < maxSteps by omega)
        apply executed_schedule_of_stuck hpaced.count_le
        rw [← hpaced.last_eq]
        exact hpaced.stuck
  | _ => rfl

theorem perform_config (m : Machine) (op : Operation) : (m.perform op).2.config = m.config := by
  suffices hall : ∀ ops, (m.after ops).config = m.config from hall [op]
  intro ops
  refine after_invariant (P := fun n => n.config = m.config) (Q := fun _ => True) ?_ trivial trivial
    (fun _ _ => trivial) rfl
  intro n op hb _ hn
  rcases op.step_or_reset_or_other with rfl | rfl | rfl | ⟨hs, hr, hc⟩
  · rw [perform_step, ← hn]
    rcases n.step_cases with ⟨d, hd, hs⟩ | ⟨_, hs⟩
    · obtain ⟨v, p, rfl⟩ := ready?_eq_some hd
      rw [hs, cycle_config]
    · rw [hs]
  · rw [perform_reset, reset_config, hn]
  · rw [perform_resetCpu, resetCpu_config, hn]
  · obtain ⟨_, _, _, _, _, _, _, h, _⟩ := perform_host (m := n) hb hs hr hc
    rw [h]
    exact hn

section Invariant

variable {P R : Machine → Prop} {Q : Operation → Prop}

/-- What single operations of a kind preserve tells something of the machines that they execute
instructions on. -/
theorem forall_executed (h : ∀ m op, op.isBatch = false → Q op → P m → P (m.perform op).2)
    (hd : ∀ m d, P m → m.ready? = some d → R d) (hops : ∀ op ∈ ops, op.isBatch = false ∧ Q op)
    (hm : P m) : ∀ d ∈ m.executed ops, R d := by
  induction ops generalizing m with
  | nil =>
    intro d hd
    cases hd
  | cons op ops ih =>
    obtain ⟨hb, hq⟩ := hops op (by simp)
    have hnext := h m op hb hq hm
    have htail := ih (fun o ho => hops o (by simp [ho])) hnext
    rcases m.executed_cases op ops with ⟨d, rfl, hready, he⟩ | ⟨_, he⟩
    · rw [perform_step, step_of_ready hready] at htail
      rw [he]
      exact List.forall_mem_cons.mpr ⟨hd m d hm hready, htail⟩
    · rw [he]
      exact htail

theorem forall_executions (h : ∀ m op, op.isBatch = false → Q op → P m → P (m.perform op).2)
    (hd : ∀ m d, P m → m.ready? = some d → R d) (hstep : Q .step) (htick : Q .tick)
    (hops : ∀ op ∈ ops, Q op) (hm : P m) : ∀ d ∈ m.executions ops, R d := by
  rw [← executed_singles]
  exact forall_executed h hd (single_of_mem_singles hstep htick hops) hm

end Invariant

/-- Instructions are executed on machines that run, in the mode that the host chose. -/
theorem mem_executions (h : d ∈ m.executions ops) : d.fault = none ∧ d.config = m.config := by
  refine forall_executions (P := fun n => n.config = m.config)
    (R := fun d => d.fault = none ∧ d.config = m.config) (Q := fun _ => True) ?_ ?_ trivial trivial
    (fun _ _ => trivial) rfl d h
  · intro n op _ _ hn
    rw [perform_config, hn]
  · intro n d hn hd
    refine ⟨ready?_fault hd, ?_⟩
    obtain ⟨v, p, rfl⟩ := ready?_eq_some hd
    exact hn

end Machine

end Chip8
