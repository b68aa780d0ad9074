import Chip8.Operation
import Chip8.Proofs.Execution

/-! Batches of instructions are single steps, one after the other. -/
namespace Chip8.Machine

variable {m : Machine} {n k : Nat}

/-- The machine after some operations. -/
def after (m : Machine) (ops : List Operation) : Machine := (m.performAll ops).2

@[simp] theorem after_nil (m : Machine) : m.after [] = m := rfl

@[simp] theorem after_cons (m : Machine) (op : Operation) (ops : List Operation) :
    m.after (op :: ops) = (m.perform op).2.after ops := rfl

@[simp] theorem after_append (m : Machine) (ops more : List Operation) :
    m.after (ops ++ more) = (m.after ops).after more := by
  induction ops generalizing m with
  | nil => rfl
  | cons op ops ih => exact ih (m.perform op).2

theorem after_eq_foldl (m : Machine) (ops : List Operation) :
    m.after ops = ops.foldl (fun n op => (n.perform op).2) m := by
  induction ops generalizing m with
  | nil => rfl
  | cons op ops ih => exact ih (m.perform op).2

@[simp] theorem perform_step (m : Machine) : (m.perform .step).2 = m.step.2 := rfl

@[simp] theorem perform_tick (m : Machine) : (m.perform .tick).2 = m.tick := rfl

@[simp] theorem perform_reset (m : Machine) : (m.perform .reset).2 = m.reset := rfl

@[simp] theorem perform_resetCpu (m : Machine) : (m.perform .resetCpu).2 = m.resetCpu := rfl

theorem after_replicate_succ (m : Machine) (n : Nat) :
    m.after (List.replicate (n + 1) .step) = m.step.2.after (List.replicate n .step) := rfl

/-- A machine that cannot step stays as it is. -/
theorem after_replicate_of_not_ready (h : m.ready? = none) (n : Nat) :
    m.after (List.replicate n .step) = m := by
  induction n with
  | zero => rfl
  | succ n ih => rw [after_replicate_succ, step_of_not_ready h, ih]

/-- The first `k` steps execute an instruction each. -/
def Executes (m : Machine) (k : Nat) : Prop :=
  ∀ j < k, (m.after (List.replicate j .step)).step.1 = true

theorem executes_zero (m : Machine) : m.Executes 0 := fun j hj => by omega

theorem executes_succ (hs : m.step.1 = true) (h : m.step.2.Executes k) : m.Executes (k + 1) := by
  intro j hj
  cases j with
  | zero => exact hs
  | succ j => exact h j (by omega)

theorem Executes.steps_eq (h : m.Executes k) :
    (m.after (List.replicate k .step)).steps = m.steps + k := by
  induction k with
  | zero => rfl
  | succ k ih =>
    have hk := ih fun j hj => h j (by omega)
    have hs := h k (by omega)
    rw [List.replicate_succ', after_append, after_cons, after_nil, perform_step, step_steps, hs, hk]
    rfl

/-- A batch of `n` that ends at `last` after `k` instructions: it ends early only at a machine that
cannot step. -/
structure Batch (m : Machine) (n k : Nat) (last : Machine) : Prop where
  count_le : k ≤ n
  last_eq : last = m.after (List.replicate k .step)
  executes : m.Executes k
  stuck : k < n → last.ready? = none

theorem runFrom_batch (m : Machine) (n done : Nat) :
    ∃ k, (m.runFrom done n).1 = done + k ∧ Batch m n k (m.runFrom done n).2 := by
  induction n generalizing m done with
  | zero => exact ⟨0, rfl, Nat.le_refl _, rfl, executes_zero m, fun h => by omega⟩
  | succ n ih =>
    rcases m.step_cases with ⟨r, _, hs⟩ | ⟨hr, hs⟩
    · simp only [runFrom, hs]
      obtain ⟨k, hk, hb⟩ := ih r.cycle (done + 1)
      refine ⟨k + 1, by omega, by have := hb.count_le; omega, ?_, ?_, ?_⟩
      · rw [after_replicate_succ, hs]
        exact hb.last_eq
      · exact executes_succ (by rw [hs]) (by rw [hs]; exact hb.executes)
      · intro h
        exact hb.stuck (by omega)
    · simp only [runFrom, hs]
      exact ⟨0, rfl, by omega, rfl, executes_zero m, fun _ => hr⟩

theorem run_batch (m : Machine) (n : Int) : Batch m n.toNat (m.run n).1 (m.run n).2 := by
  obtain ⟨k, hk, hb⟩ := m.runFrom_batch n.toNat 0
  have h : (m.run n).1 = k := by
    rw [← Nat.zero_add k]
    exact hk
  rw [h]
  exact hb

/-- The steps that a batch leaves out would not have done anything. -/
theorem Batch.last_eq_all {last : Machine} (h : Batch m n k last) :
    last = m.after (List.replicate n .step) := by
  have hn : n = k + (n - k) := by have := h.count_le; omega
  rw [hn, ← List.replicate_append_replicate, after_append, ← h.last_eq]
  by_cases hk : k < n
  · rw [after_replicate_of_not_ready (h.stuck hk)]
  · have : n - k = 0 := by omega
    rw [this]
    rfl

theorem run_last (m : Machine) (n : Int) :
    (m.run n).2 = m.after (List.replicate n.toNat .step) := (m.run_batch n).last_eq_all

end Chip8.Machine
