import Chip8.Proofs.Schedule

/-! What happened in a run, event by event. Batches are taken apart, so that an event is one
instruction or one doing of the host. -/
namespace Chip8

def Operation.isBatch : Operation → Bool
  | .run _ | .runFrame _ | .runPaced _ _ => true
  | _ => false

inductive Event
  /-- An instruction, and the machine it acts on, a delivered key included. -/
  | executed (m : Machine)
  /-- A step of a machine that cannot step. -/
  | stuck
  | host (op : Operation)

/-- What each entry of a log sets or leaves alone is in the end as the last entry to set it has set
it. -/
theorem foldl_last {σ α β : Type} {step : σ → α → σ} {set? : α → Option β} (value : σ → β)
    (h : ∀ s a, value (step s a) = (set? a).getD (value s)) (log : List α) (s : σ) :
    value (log.foldl step s) = (log.filterMap set?).getLast?.getD (value s) := by
  induction log generalizing s with
  | nil => rfl
  | cons a log ih =>
    rw [List.foldl_cons, ih, h]
    cases ha : set? a with
    | none => rw [List.filterMap_cons_none ha, Option.getD_none]
    | some b =>
      rw [List.filterMap_cons_some ha, List.getLast?_cons, Option.getD_some, Option.getD_some]

theorem Operation.step_or_reset_or_other (op : Operation) : op = .step ∨ op = .reset ∨
    op = .resetCpu ∨ (op ≠ .step ∧ op ≠ .reset ∧ op ≠ .resetCpu) := by
  cases op <;> simp

namespace Machine

variable {m : Machine} {op o : Operation}

/-- What the host does itself, resets apart, leaves the calls, a fault, the mode, the random source
and the count of instructions alone, and moves the program only when told to. -/
theorem perform_host (hb : op.isBatch = false) (hs : op ≠ .step) (hr : op ≠ .reset)
    (hc : op ≠ .resetCpu) : ∃ v i a store d p t,
      (m.perform op).2 = { m with
        v := v, i := i, pc := a, memory := store, display := d, keypad := p, timers := t } ∧
      ((∀ n, op ≠ .setPc n) → a = m.pc) := by
  cases op with
  | step => exact absurd rfl hs
  | reset => exact absurd rfl hr
  | resetCpu => exact absurd rfl hc
  | run | runFrame | runPaced => cases hb
  | load program =>
    obtain ⟨store, h⟩ := m.load_eq program
    exact ⟨m.v, m.i, m.pc, store, m.display, m.keypad, m.timers, h, fun _ => rfl⟩
  | setKey index down =>
    obtain ⟨held, h⟩ := m.setKey_eq index down
    exact ⟨m.v, m.i, m.pc, m.memory, m.display, _, m.timers, h, fun _ => rfl⟩
  | setNamedKey layout name down =>
    obtain ⟨held, h⟩ := m.setNamedKey_eq layout name down
    exact ⟨m.v, m.i, m.pc, m.memory, m.display, _, m.timers, h, fun _ => rfl⟩
  | setPc n => exact ⟨_, _, _, _, _, _, _, rfl, fun h => absurd rfl (h n)⟩
  | _ => exact ⟨_, _, _, _, _, _, _, rfl, fun _ => rfl⟩

/-- A batch as steps and ticks. Any other operation stands for itself. -/
def unrolled (m : Machine) : Operation → List Operation
  | .run n => List.replicate n.toNat .step
  | .runFrame n => List.replicate n.toNat .step ++ [.tick]
  | .runPaced maxSteps pace =>
    if maxSteps ≤ 0 then [] else schedule pace.toNat (m.runPaced maxSteps pace).1.steps
  | op => [op]

theorem after_unrolled (m : Machine) (op : Operation) :
    m.after (m.unrolled op) = (m.perform op).2 := by
  cases op with
  | run n => exact (m.run_last n).symm
  | runFrame n =>
    rw [unrolled, after_append, ← run_last]
    rfl
  | runPaced maxSteps pace => exact (m.runPaced_last maxSteps pace).symm
  | _ => rfl

theorem mem_pacedSteps {pace n : Nat} (h : op ∈ pacedSteps pace n) : op = .step ∨ op = .tick := by
  induction n with
  | zero => simp [pacedSteps] at h
  | succ n ih =>
    rcases List.mem_append.mp h with h | h
    · exact ih h
    · split at h
      · exact List.mem_pair.mp h
      · exact .inl (List.mem_singleton.mp h)

theorem mem_schedule {pace n : Nat} (h : op ∈ schedule pace n) : op = .step ∨ op = .tick := by
  rcases List.mem_append.mp h with h | h
  · exact mem_pacedSteps h
  · split at h
    · cases h
    · exact .inr (List.mem_singleton.mp h)

/-- A batch is made of steps and ticks. -/
theorem mem_unrolled (h : op ∈ m.unrolled o) :
    (o.isBatch = false ∧ op = o) ∨ op = .step ∨ op = .tick := by
  cases o with
  | run n => exact .inr (.inl (List.eq_of_mem_replicate h))
  | runFrame n =>
    rcases List.mem_append.mp h with h | h
    · exact .inr (.inl (List.eq_of_mem_replicate h))
    · exact .inr (.inr (List.mem_singleton.mp h))
  | runPaced maxSteps pace =>
    simp only [unrolled] at h
    split at h
    · cases h
    · exact .inr (mem_schedule h)
  | _ => exact .inl ⟨rfl, List.mem_singleton.mp h⟩

/-- What a machine does by itself comes down to steps and ticks. -/
theorem step_or_tick_of_mem_unrolled (ho : o = .step ∨ o = .tick ∨ o.isBatch = true) :
    ∀ op ∈ m.unrolled o, op = .step ∨ op = .tick := by
  intro op h
  rcases mem_unrolled h with ⟨hb, rfl⟩ | hop
  · rcases ho with rfl | rfl | hbatch
    · exact .inl rfl
    · exact .inr rfl
    · cases hb.symm.trans hbatch
  · exact hop

theorem isBatch_of_mem_unrolled (h : op ∈ m.unrolled o) : op.isBatch = false := by
  rcases mem_unrolled h with ⟨ho, rfl⟩ | rfl | rfl
  · exact ho
  · rfl
  · rfl

def event (m : Machine) : Operation → Event
  | .step =>
    match m.ready? with
    | some r => .executed r
    | none => .stuck
  | op => .host op

theorem event_of_ready {r : Machine} (h : m.ready? = some r) : m.event .step = .executed r := by
  simp [event, h]

theorem event_of_not_ready (h : m.ready? = none) : m.event .step = .stuck := by
  simp [event, h]

theorem event_of_ne_step (h : op ≠ .step) : m.event op = .host op := by
  cases op with
  | step => exact absurd rfl h
  | _ => rfl

def events (m : Machine) : List Operation → List Event
  | [] => []
  | op :: ops => m.event op :: (m.perform op).2.events ops

theorem events_append (m : Machine) (ops more : List Operation) :
    m.events (ops ++ more) = m.events ops ++ (m.after ops).events more := by
  induction ops generalizing m with
  | nil => rfl
  | cons op ops ih => exact congrArg (m.event op :: ·) (ih (m.perform op).2)

/-- Each event has its place in the run: what was done before it, and what is left to do. -/
theorem events_split {past rest : List Event} {e : Event} {ops : List Operation}
    (h : m.events ops = past ++ e :: rest) : ∃ before op todo, ops = before ++ op :: todo ∧
      m.events before = past ∧ (m.after before).event op = e ∧
      (m.after (before ++ [op])).events todo = rest := by
  induction past generalizing m ops with
  | nil =>
    cases ops with
    | nil => cases h
    | cons op ops =>
      obtain ⟨he, hrest⟩ := List.cons.inj h
      exact ⟨[], op, ops, rfl, rfl, he, hrest⟩
  | cons first past ih =>
    cases ops with
    | nil => cases h
    | cons op ops =>
      obtain ⟨hfirst, htail⟩ := List.cons.inj h
      obtain ⟨before, o, todo, rfl, hpast, he, hrest⟩ := ih htail
      exact ⟨op :: before, o, todo, rfl, by rw [events, hfirst, hpast], he, hrest⟩

theorem ready?_of_event {r : Machine} (h : m.event op = .executed r) :
    op = .step ∧ m.ready? = some r := by
  cases op with
  | step =>
    cases hr : m.ready? with
    | none =>
      rw [event_of_not_ready hr] at h
      cases h
    | some d =>
      rw [event_of_ready hr] at h
      cases h
      exact ⟨rfl, rfl⟩
  | _ => cases h

def history (m : Machine) : List Operation → List Event
  | [] => []
  | op :: ops => m.events (m.unrolled op) ++ (m.perform op).2.history ops

theorem history_of_singles {ops : List Operation} (h : ∀ op ∈ ops, op.isBatch = false) :
    m.history ops = m.events ops := by
  induction ops generalizing m with
  | nil => rfl
  | cons op ops ih =>
    have hop : m.unrolled op = [op] := by
      have hb := h op (by simp)
      cases op with
      | run | runFrame | runPaced => cases hb
      | _ => rfl
    rw [history, hop, ih fun o ho => h o (by simp [ho])]
    rfl

/-- A run with its batches taken apart. -/
def singles (m : Machine) : List Operation → List Operation
  | [] => []
  | op :: ops => m.unrolled op ++ (m.perform op).2.singles ops

theorem after_singles (m : Machine) (ops : List Operation) :
    m.after (m.singles ops) = m.after ops := by
  induction ops generalizing m with
  | nil => rfl
  | cons op ops ih => rw [singles, after_append, after_unrolled, ih, after_cons]

theorem events_singles (m : Machine) (ops : List Operation) :
    m.events (m.singles ops) = m.history ops := by
  induction ops generalizing m with
  | nil => rfl
  | cons op ops ih => rw [singles, events_append, after_unrolled, ih, history]

theorem mem_singles {ops : List Operation} (h : op ∈ m.singles ops) :
    (op.isBatch = false ∧ op ∈ ops) ∨ op = .step ∨ op = .tick := by
  induction ops generalizing m with
  | nil => cases h
  | cons o ops ih =>
    rcases List.mem_append.mp h with h | h
    · rcases mem_unrolled h with ⟨hb, rfl⟩ | hop
      · exact .inl ⟨hb, List.mem_cons_self⟩
      · exact .inr hop
    · rcases ih h with ⟨hb, hop⟩ | hop
      · exact .inl ⟨hb, List.mem_cons_of_mem o hop⟩
      · exact .inr hop

/-- Of operations of a kind, with steps and ticks among them, the single ones are of that kind. -/
theorem single_of_mem_singles {Q : Operation → Prop} {ops : List Operation} (hstep : Q .step)
    (htick : Q .tick) (hops : ∀ op ∈ ops, Q op) :
    ∀ op ∈ m.singles ops, op.isBatch = false ∧ Q op := by
  intro op h
  rcases mem_singles h with ⟨hb, hop⟩ | rfl | rfl
  · exact ⟨hb, hops op hop⟩
  · exact ⟨rfl, hstep⟩
  · exact ⟨rfl, htick⟩

theorem isBatch_of_mem_singles {ops : List Operation} (h : op ∈ m.singles ops) :
    op.isBatch = false := by
  rcases mem_singles h with ⟨hb, _⟩ | rfl | rfl
  · exact hb
  · rfl
  · rfl

section Invariant

variable {P : Machine → Prop} {Q : Operation → Prop} {ops : List Operation}

theorem after_of_single (h : ∀ m op, op.isBatch = false → Q op → P m → P (m.perform op).2)
    (hops : ∀ op ∈ ops, op.isBatch = false ∧ Q op) (hm : P m) : P (m.after ops) := by
  induction ops generalizing m with
  | nil => exact hm
  | cons op ops ih =>
    obtain ⟨hb, hq⟩ := hops op (by simp)
    exact ih (fun o ho => hops o (by simp [ho])) (h m op hb hq hm)

/-- What every single operation of a kind preserves, with steps and ticks among them, holds after
any run of that kind. -/
theorem after_invariant (h : ∀ m op, op.isBatch = false → Q op → P m → P (m.perform op).2)
    (hstep : Q .step) (htick : Q .tick) (hops : ∀ op ∈ ops, Q op) (hm : P m) :
    P (m.after ops) := by
  rw [← after_singles]
  exact after_of_single h (single_of_mem_singles hstep htick hops) hm

end Invariant

section Record

variable {σ : Type} {f : σ → Event → σ} {P : Machine → σ → Prop} {s : σ}

theorem foldl_events
    (h : ∀ m s op, op.isBatch = false → P m s → P (m.perform op).2 (f s (m.event op)))
    {ops : List Operation} (hops : ∀ op ∈ ops, op.isBatch = false) (hm : P m s) :
    P (m.after ops) ((m.events ops).foldl f s) := by
  induction ops generalizing m s with
  | nil => exact hm
  | cons op ops ih =>
    exact ih (fun o ho => hops o (by simp [ho])) (h m s op (hops op (by simp)) hm)

/-- What every event preserves, of the machine and of a record kept along with it, holds after any
run. -/
theorem foldl_history
    (h : ∀ m s op, op.isBatch = false → P m s → P (m.perform op).2 (f s (m.event op)))
    (hm : P m s) (ops : List Operation) : P (m.after ops) ((m.history ops).foldl f s) := by
  rw [← events_singles, ← after_singles]
  exact foldl_events h (fun op hop => isBatch_of_mem_singles hop) hm

/-- What every event preserves, of the machine and of all that happened before, holds after any
run. -/
theorem history_induction {P : Machine → List Event → Prop}
    (h : ∀ m past op, op.isBatch = false → P m past →
      P (m.perform op).2 (past ++ [m.event op])) (hm : P m []) (ops : List Operation) :
    P (m.after ops) (m.history ops) := by
  have hfold := foldl_history (f := fun past e => past ++ [e]) h hm ops
  rw [List.foldl_append_eq_append, ← List.flatMap_def, List.flatMap_singleton',
    List.nil_append] at hfold
  exact hfold

end Record

theorem history_singleton (m : Machine) (op : Operation) :
    m.history [op] = m.events (m.unrolled op) := List.append_nil _

end Machine

end Chip8
