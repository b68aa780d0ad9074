import Chip8.Proofs.Halting
import Mathlib.Data.List.DropRight

/-! Batches beside the single steps that they stand for: what both leave and tell. Either way the
machine counts its instructions. -/
namespace Chip8

namespace Event

def isExecuted : Event → Bool
  | .executed _ => true
  | _ => false

def isReset : Event → Bool
  | .host .reset => true
  | _ => false

end Event

variable {past : List Event} {e : Event}

/-- The instructions executed since the last reset, or all of them if there was none. -/
def executedSinceReset (past : List Event) : Nat :=
  (past.rtakeWhile fun e => !e.isReset).countP Event.isExecuted

theorem executedSinceReset_of_reset (h : e.isReset = true) :
    executedSinceReset (past ++ [e]) = 0 := by
  rw [executedSinceReset, List.rtakeWhile_concat_neg _ _ _ (by simp [h])]
  rfl

theorem executedSinceReset_of_other (h : e.isReset = false) :
    executedSinceReset (past ++ [e]) = executedSinceReset past + e.isExecuted.toNat := by
  rw [executedSinceReset, List.rtakeWhile_concat_pos _ _ _ (by simp [h]), List.countP_append,
    List.countP_singleton]
  cases e.isExecuted <;> rfl

namespace Machine

variable {m last : Machine} {n k : Nat} {op : Operation} {ops : List Operation}

/-! The count of instructions. -/

theorem steps_event (hb : op.isBatch = false) : (m.perform op).2.steps =
    if (m.event op).isReset then 0 else m.steps + (m.event op).isExecuted.toNat := by
  rcases op.step_or_reset_or_other with rfl | rfl | rfl | ⟨hs, hr, hc⟩
  · rw [perform_step, step_steps]
    rcases m.step_cases with ⟨d, hd, hs⟩ | ⟨hd, hs⟩
    · rw [hs, event_of_ready hd]
      rfl
    · rw [hs, event_of_not_ready hd]
      rfl
  · rfl
  · rfl
  · obtain ⟨_, _, _, _, _, _, _, h, _⟩ := perform_host (m := m) hb hs hr hc
    have hreset : (m.event op).isReset = false := by
      rw [event_of_ne_step hs]
      cases op with
      | reset => exact absurd rfl hr
      | _ => rfl
    rw [hreset, event_of_ne_step hs, h]
    rfl

theorem steps_history (config : Config) (source : Random.Source) (ops : List Operation) :
    ((initial config source).after ops).steps =
      executedSinceReset ((initial config source).history ops) := by
  refine history_induction (P := fun m past => m.steps = executedSinceReset past) ?_ rfl ops
  intro m past op hb h
  rw [steps_event hb]
  cases hr : (m.event op).isReset with
  | true => exact (executedSinceReset_of_reset hr).symm
  | false =>
    rw [executedSinceReset_of_other hr, ← h]
    rfl

/-! What single steps tell. -/

def answers (m : Machine) (ops : List Operation) : List (Except HostError Answer) :=
  (m.performAll ops).1.map Reply.answer

def records (m : Machine) (ops : List Operation) : List Record :=
  (m.performAll ops).1.flatMap Reply.records

theorem answers_cons (m : Machine) (op : Operation) (ops : List Operation) :
    m.answers (op :: ops) = (m.perform op).1.answer :: (m.perform op).2.answers ops := rfl

theorem records_cons (m : Machine) (op : Operation) (ops : List Operation) :
    m.records (op :: ops) = (m.perform op).1.records ++ (m.perform op).2.records ops :=
  List.flatMap_cons

theorem answers_append (m : Machine) (ops more : List Operation) :
    m.answers (ops ++ more) = m.answers ops ++ (m.after ops).answers more := by
  induction ops generalizing m with
  | nil => rfl
  | cons op ops ih => exact congrArg ((m.perform op).1.answer :: ·) (ih (m.perform op).2)

theorem answers_of_not_ready (h : m.ready? = none) (n : Nat) :
    m.answers (List.replicate n .step) = List.replicate n (.ok (.flag false)) := by
  induction n with
  | zero => rfl
  | succ n ih =>
    have hfirst : (m.perform .step).1.answer = .ok (.flag false) :=
      congrArg (fun r : Bool × Machine => Except.ok (Answer.flag r.1)) (step_of_not_ready h)
    rw [List.replicate_succ, answers_cons, hfirst, perform_step, step_of_not_ready h, ih]
    rfl

theorem answers_of_executes (h : m.Executes k) :
    m.answers (List.replicate k .step) = List.replicate k (.ok (.flag true)) := by
  induction k with
  | zero => rfl
  | succ k ih =>
    have hfirst := ih fun j hj => h j (by omega)
    have hlast : (m.after (List.replicate k .step)).answers [.step] = [.ok (.flag true)] :=
      congrArg (fun b => [Except.ok (Answer.flag b)]) (h k (by omega))
    rw [List.replicate_succ', answers_append, hfirst, hlast, ← List.replicate_succ']

/-- Of the steps that a batch stands for, the first ones execute an instruction each. -/
theorem Batch.answers_eq (h : Batch m n k last) : m.answers (List.replicate n .step) =
    List.replicate k (.ok (.flag true)) ++ List.replicate (n - k) (.ok (.flag false)) := by
  have hn : n = k + (n - k) := by have := h.count_le; omega
  conv_lhs => rw [hn, ← List.replicate_append_replicate]
  rw [answers_append, answers_of_executes h.executes, ← h.last_eq]
  by_cases hk : k < n
  · rw [answers_of_not_ready (h.stuck hk)]
  · have hnone : n - k = 0 := by omega
    rw [hnone]
    rfl

theorem haltRecords_trans {a b c : Machine} (hab : a.faults <+: b.faults)
    (hbc : b.faults <+: c.faults) : a.haltRecords c = a.haltRecords b ++ b.haltRecords c := by
  obtain ⟨new, hnew⟩ := hab
  obtain ⟨newer, hnewer⟩ := hbc
  rw [haltRecords, haltRecords, haltRecords, ← List.map_append, ← hnewer, List.drop_left, ← hnew,
    List.append_assoc, List.drop_left, List.drop_left]

/-- The halts among the steps are told of as if they were one. -/
theorem records_steps (m : Machine) (n : Nat) : m.records (List.replicate n .step) =
    m.haltRecords (m.after (List.replicate n .step)) := by
  induction n generalizing m with
  | zero => exact (haltRecords_of_faults_eq rfl).symm
  | succ n ih =>
    have hsteps : ∀ op ∈ List.replicate n Operation.step, op ≠ .reset ∧ op ≠ .resetCpu :=
      fun op hop => by rw [List.eq_of_mem_replicate hop]; exact ⟨nofun, nofun⟩
    rw [List.replicate_succ, records_cons, after_cons, perform_step, ih]
    exact (haltRecords_trans m.faults_prefix_step (faults_prefix_after hsteps)).symm

theorem run_steps (m : Machine) (n : Int) : (m.run n).2.steps = m.steps + (m.run n).1 := by
  have hbatch := m.run_batch n
  rw [hbatch.last_eq]
  exact hbatch.executes.steps_eq

/-- Two batches in a row are one. The count follows from what both have added to the machine's. -/
theorem run_add (m : Machine) {a b : Int} (ha : 0 ≤ a) (hb : 0 ≤ b) :
    m.run (a + b) = ((m.run a).1 + ((m.run a).2.run b).1, ((m.run a).2.run b).2) := by
  have hlast : (m.run (a + b)).2 = ((m.run a).2.run b).2 := by
    rw [run_last, run_last, run_last, ← after_append, List.replicate_append_replicate,
      Int.toNat_add ha hb]
  have hsum := m.run_steps (a + b)
  have hfirst := m.run_steps a
  have hsecond := (m.run a).2.run_steps b
  rw [← hlast] at hsecond
  exact Prod.ext (by omega) hlast

/-- A batch leaves what so many single steps leave, and nothing less is told of it. It answers how
many of them execute an instruction, and these come first: a machine that could not take a step
cannot take the next one either. A frame is a batch and then a tick, and two batches in a row are
one. Always the machine has counted the instructions since it was switched on or reset. -/
theorem run_is_single_steps :
    (∀ (m : Machine) (n : Int),
      let steps := List.replicate n.toNat Operation.step
      let k := (m.run n).1
      (k ≤ n.toNat ∧ (m.run n).2 = m.after steps) ∧
      m.answers steps =
        List.replicate k (.ok (.flag true)) ++ List.replicate (n.toNat - k) (.ok (.flag false)) ∧
      m.records [.run n] = m.records steps ∧
      (m.run n).2.steps = m.steps + k ∧
      m.runFrame n = (k, m.after (steps ++ [.tick]))) ∧
    (∀ m : Machine, m.step.1 = false → ∀ n,
      m.after (List.replicate n .step) = m ∧
        m.answers (List.replicate n .step) = List.replicate n (.ok (.flag false))) ∧
    (∀ (m : Machine) (a b : Int), 0 ≤ a → 0 ≤ b →
      m.run (a + b) = ((m.run a).1 + ((m.run a).2.run b).1, ((m.run a).2.run b).2)) ∧
    ∀ config source ops, ((initial config source).after ops).steps =
      executedSinceReset ((initial config source).history ops) := by
  refine ⟨fun m n => ?_, fun m h n => ?_, fun m a b => m.run_add, steps_history⟩
  · intro steps k
    have hbatch := m.run_batch n
    have hlast := m.run_last n
    have hrecords : m.records [.run n] = m.haltRecords (m.run n).2 := List.append_nil _
    refine ⟨⟨hbatch.count_le, hlast⟩, hbatch.answers_eq, ?_, m.run_steps n, ?_⟩
    · rw [hrecords, records_steps, hlast]
    · rw [after_append, ← hlast]
      rfl
  · have hstuck := ready?_of_not_executed h
    exact ⟨after_replicate_of_not_ready hstuck n, answers_of_not_ready hstuck n⟩

/-- A program that writes a zero over the first half of its third instruction, a wait for a key. -/
def overwriteWait : List Operation := [.load [0xA2, 0x04, 0xF0, 0x55, 0xF5, 0x0A]]

set_option maxRecDepth 100000 in
/-- It halts there, within its first batch or its second one. -/
theorem overwritten_wait_halts :
    let start := initial {} (.listed [0] 0)
    let m := start.after overwriteWait
    let h := (m.run 5).2
    let steps := List.replicate 5 Operation.step
    let ops := overwriteWait ++ [.run 5, .reset, .runFrame 1]
    ((m.run 5).1 = 3 ∧ h = m.after steps ∧
      m.answers steps = [.ok (.flag true), .ok (.flag true), .ok (.flag true), .ok (.flag false),
        .ok (.flag false)] ∧
      m.records steps = [.halted ⟨.unrecognizedOpcode, 0x000A, 0x204⟩]) ∧
      (h.step.1 = false ∧ h.after steps = h) ∧
      ((m.run 2).1 + ((m.run 2).2.run 3).1 = 3 ∧ ((m.run 2).2.run 3).2 = h) ∧
      ((start.after ops).steps = 1 ∧ executedSinceReset (start.history ops) = 1) := by
  intro start m h steps ops
  have hrun : (m.run 5).1 = 3 ∧ h.step.1 = false ∧
      m.records [.run 5] = [.halted ⟨.unrecognizedOpcode, 0x000A, 0x204⟩] := by decide +kernel
  have hsince : executedSinceReset (start.history ops) = 1 := by decide +kernel
  obtain ⟨hbatch, hstuck, hadd, hcount⟩ := run_is_single_steps
  obtain ⟨⟨-, hlast⟩, hanswers, hrecords, -, -⟩ := hbatch m 5
  have hboth := hadd m 2 3 (by decide) (by decide)
  have hfirst : (m.run 2).1 + ((m.run 2).2.run 3).1 = 3 :=
    (congrArg Prod.fst hboth).symm.trans hrun.1
  rw [hrun.1] at hanswers
  exact ⟨⟨hrun.1, hlast, hanswers, hrecords.symm.trans hrun.2.2⟩,
    ⟨hrun.2.1, (hstuck h hrun.2.1 5).1⟩, ⟨hfirst, (congrArg Prod.snd hboth).symm⟩,
    (hcount {} (.listed [0] 0) ops).trans hsince, hsince⟩

end Machine

end Chip8
