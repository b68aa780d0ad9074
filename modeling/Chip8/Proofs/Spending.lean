import Chip8.Proofs.Executions

/-! Two machines side by side through whole batches. What they have in common may run out: every
instruction has its cost, and they go together for as long as it can be paid. -/
namespace Chip8.Machine

variable {m d : Machine} {op : Operation} {ops : List Operation}

/-- The same answer, with `R` between the machines behind it. -/
def SameAnswer {α : Type} (R : Machine → Machine → Prop) (x y : α × Machine) : Prop :=
  y.1 = x.1 ∧ R x.2 y.2

/-- What some instructions cost together. -/
def price (cost : Machine → Nat) (ds : List Machine) : Nat := (ds.map cost).sum

/-- Two machines in `R k` answer alike, and an instruction takes its cost from `k`. -/
structure Spends (cost : Machine → Nat) (R : Nat → Machine → Machine → Prop) : Prop where
  cycle : ∀ {k m n d}, m.ready? = some d → R (cost d + k) m n → R k m.step.2 n.step.2
  tick : ∀ {k m n}, R k m n → R k m.tick n.tick
  faults : ∀ {k m n}, R k m n → n.faults = m.faults
  blocked : ∀ {k m n}, R k m n → n.blocked = m.blocked

theorem price_cons_add (cost : Machine → Nat) (d : Machine) (ds : List Machine) (k : Nat) :
    price cost (d :: ds) + k = cost d + (price cost ds + k) := Nat.add_assoc _ _ k

theorem price_append_add (cost : Machine → Nat) (ds es : List Machine) (k : Nat) :
    price cost (ds ++ es) + k = price cost ds + (price cost es + k) := by
  simp only [price, List.map_append, List.sum_append, Nat.add_assoc]

theorem price_nil_add (cost : Machine → Nat) (k : Nat) : price cost [] + k = k := Nat.zero_add k

theorem executed_nil (m : Machine) : m.executed [] = [] := rfl

/-- What the host does itself executes nothing. -/
theorem executed_unrolled_of_host (hb : op.isBatch = false) (hs : op ≠ .step) :
    m.executed (m.unrolled op) = [] := by
  cases op with
  | step => exact absurd rfl hs
  | run | runFrame | runPaced => cases hb
  | _ => rfl

/-! What the steps of a schedule execute, frame by frame. -/

theorem executed_concat_tick (m : Machine) (ops : List Operation) :
    m.executed (ops ++ [.tick]) = m.executed ops := by
  rw [executed_append]
  exact List.append_nil _

theorem executed_schedule_zero (m : Machine) (perTick : Nat) :
    m.executed (schedule perTick 0) = [] := executed_schedule m perTick 0

theorem executed_schedule_frame (m : Machine) {perTick : Nat} (hp : 0 < perTick) (left : Nat) :
    m.executed (schedule perTick left) =
      m.executed (List.replicate (min perTick left) .step) ++
        (m.after (List.replicate (min perTick left) .step ++ [.tick])).executed
          (schedule perTick (left - perTick)) := by
  rcases Nat.lt_or_ge perTick left with h | h
  · obtain ⟨rest, rfl⟩ : ∃ rest, left = perTick + rest := ⟨left - perTick, by omega⟩
    have hsize : min perTick (perTick + rest) = perTick := by omega
    have hrest : perTick + rest - perTick = rest := by omega
    rw [hsize, hrest, schedule_add (by omega), pacedSteps_frame hp, executed_append,
      executed_concat_tick]
  · have hsize : min perTick left = left := by omega
    have hrest : left - perTick = 0 := by omega
    rw [hsize, hrest, executed_schedule_zero, List.append_nil, schedule_frame hp h,
      executed_concat_tick]

namespace Spends

variable {cost : Machine → Nat} {R : Nat → Machine → Machine → Prop} {n : Machine}
  {k j left : Nat} {pace : Int}

theorem halted (h : Spends cost R) (hr : R k m n) : n.halted = m.halted := by
  simp only [Machine.halted, Machine.fault, h.faults hr]

theorem ready?_eq_none_iff (h : Spends cost R) (hr : R k m n) :
    n.ready? = none ↔ m.ready? = none := by
  rw [Machine.ready?_eq_none_iff, Machine.ready?_eq_none_iff, h.halted hr, h.blocked hr]

theorem step_of_ready (h : Spends cost R) (hd : m.ready? = some d) (hr : R (cost d + k) m n) :
    m.step = (true, d.cycle) ∧ ∃ e, n.step = (true, e) ∧ R k d.cycle e := by
  have hnext := h.cycle hd hr
  cases he : n.ready? with
  | none => cases hd.symm.trans ((h.ready?_eq_none_iff hr).mp he)
  | some e =>
    rw [Machine.step_of_ready hd, Machine.step_of_ready he] at hnext
    exact ⟨Machine.step_of_ready hd, e.cycle, Machine.step_of_ready he, hnext⟩

theorem step_of_not_ready (h : Spends cost R) (hm : m.ready? = none) (hr : R k m n) :
    m.step = (false, m) ∧ n.step = (false, n) :=
  ⟨Machine.step_of_not_ready hm,
    Machine.step_of_not_ready ((h.ready?_eq_none_iff hr).mpr hm)⟩

theorem step (h : Spends cost R) (hr : R (price cost (m.executed [.step]) + k) m n) :
    SameAnswer (R k) m.step n.step := by
  cases hd : m.ready? with
  | some d =>
    rw [executed_of_ready hd, price_cons_add, executed_nil, price_nil_add] at hr
    obtain ⟨hm, e, hn, hnext⟩ := h.step_of_ready hd hr
    rw [hm, hn]
    exact ⟨rfl, hnext⟩
  | none =>
    rw [executed_of_not_ready hd, executed_nil, price_nil_add] at hr
    obtain ⟨hm, hn⟩ := h.step_of_not_ready hd hr
    rw [hm, hn]
    exact ⟨rfl, hr⟩

theorem runFrom (h : Spends cost R) (done : Nat)
    (hr : R (price cost (m.executed (List.replicate j .step)) + k) m n) :
    SameAnswer (R k) (m.runFrom done j) (n.runFrom done j) := by
  induction j generalizing m n done with
  | zero =>
    rw [List.replicate_zero, executed_nil, price_nil_add] at hr
    exact ⟨rfl, hr⟩
  | succ j ih =>
    rw [List.replicate_succ] at hr
    cases hd : m.ready? with
    | some d =>
      rw [executed_of_ready hd, price_cons_add] at hr
      obtain ⟨hm, e, hn, hnext⟩ := h.step_of_ready hd hr
      simp only [Machine.runFrom, hm, hn]
      exact ih (done + 1) hnext
    | none =>
      rw [executed_of_stuck hd (by simp), price_nil_add] at hr
      obtain ⟨hm, hn⟩ := h.step_of_not_ready hd hr
      simp only [Machine.runFrom, hm, hn]
      exact ⟨rfl, hr⟩

theorem runFrame (h : Spends cost R) {size : Int}
    (hr : R (price cost (m.executed (List.replicate size.toNat .step)) + k) m n) :
    SameAnswer (R k) (m.runFrame size) (n.runFrame size) := by
  obtain ⟨hcount, hlast⟩ := h.runFrom 0 hr
  exact ⟨hcount, h.tick hlast⟩

/-- One frame of a paced run, with the price of the others left over. -/
theorem frame (h : Spends cost R) (hp : 1 ≤ pace)
    (hr : R (price cost (m.executed (schedule pace.toNat left)) + k) m n) :
    SameAnswer (R (price cost ((m.runFrame (min pace left)).2.executed
      (schedule pace.toNat (left - pace.toNat))) + k))
      (m.runFrame (min pace left)) (n.runFrame (min pace left)) := by
  have hsize : (min pace (left : Int)).toNat = min pace.toNat left := by omega
  have hlast : (m.runFrame (min pace left)).2 =
      m.after (List.replicate (min pace.toNat left) .step ++ [.tick]) := by
    rw [after_append, ← hsize, ← run_last]
    rfl
  rw [executed_schedule_frame m (by omega), price_append_add, ← hlast, ← hsize] at hr
  exact h.runFrame hr

theorem paceFrom (h : Spends cost R) (hp : 1 ≤ pace) {steps frames : Nat} :
    ∀ n, R (price cost (m.executed (schedule pace.toNat left)) + k) m n →
      SameAnswer (R k) (m.paceFrom pace steps frames left) (n.paceFrom pace steps frames left) := by
  fun_induction Machine.paceFrom pace steps frames left m with
  | case1 steps frames m =>
    intro n hr
    rw [executed_schedule_zero, price_nil_add] at hr
    rw [Machine.paceFrom, if_pos rfl]
    exact ⟨rfl, hr⟩
  | case2 steps frames left m hl r hhalted =>
    intro n hr
    obtain ⟨hcount, hlast⟩ := h.frame hp hr
    have hstuck : r.2.ready? = none := Machine.ready?_eq_none_iff.mpr (.inl hhalted)
    rw [executed_of_stuck hstuck fun _ => mem_schedule, price_nil_add] at hlast
    rw [Machine.paceFrom, if_neg hl]
    simp only [hcount, h.halted hlast]
    rw [if_pos hhalted]
    exact ⟨rfl, hlast⟩
  | case3 steps frames left m hl r hhalted hblocked =>
    intro n hr
    obtain ⟨hcount, hlast⟩ := h.frame hp hr
    have hstuck : r.2.ready? = none := Machine.ready?_eq_none_iff.mpr (.inr hblocked)
    rw [executed_of_stuck hstuck fun _ => mem_schedule, price_nil_add] at hlast
    rw [Machine.paceFrom, if_neg hl]
    simp only [hcount, h.halted hlast, h.blocked hlast]
    rw [if_neg hhalted, if_pos hblocked]
    exact ⟨rfl, hlast⟩
  | case4 steps frames left m hl r hhalted hblocked hzero =>
    -- an empty frame means a machine that cannot step, which was told apart before
    have hbatch : Batch m (min pace.toNat left) r.1 (m.run (min pace left)).2 := frame_batch hp
    rcases Machine.ready?_eq_none_iff.mp (hbatch.stuck (by omega)) with hh | hb
    · exact absurd hh hhalted
    · exact absurd hb hblocked
  | case5 steps frames left m hl r hhalted hblocked hzero ih =>
    intro n hr
    have hbatch : Batch m (min pace.toNat left) r.1 (m.run (min pace left)).2 := frame_batch hp
    have hfull : r.1 = min pace.toNat left := by
      have hle := hbatch.count_le
      by_contra hne
      rcases Machine.ready?_eq_none_iff.mp (hbatch.stuck (by omega)) with hh | hb
      · exact hhalted hh
      · exact hblocked hb
    have hleft : left - r.1 = left - pace.toNat := by omega
    obtain ⟨hcount, hlast⟩ := h.frame hp hr
    rw [Machine.paceFrom.eq_def pace steps frames left n, if_neg hl]
    simp only [hcount, h.halted hlast, h.blocked hlast]
    rw [if_neg hhalted, if_neg hblocked, dif_neg hzero]
    apply ih
    rw [hleft]
    exact hlast

theorem paceFrom_of_pace_nonpos (h : Spends cost R) (hp : pace ≤ 0) {steps frames : Nat}
    (hr : R k m n) :
    SameAnswer (R k) (m.paceFrom pace steps frames left) (n.paceFrom pace steps frames left) := by
  have hsize : (min pace (left : Int)).toNat = 0 := by omega
  have hframe : ∀ d : Machine, d.runFrame (min pace left) = (0, d.tick) := by
    intro d
    rw [Machine.runFrame, run, hsize]
    rfl
  have htick := h.tick hr
  rw [Machine.paceFrom, Machine.paceFrom]
  simp only [hframe, h.halted htick, h.blocked htick]
  split
  · exact ⟨rfl, hr⟩
  · split
    · exact ⟨rfl, htick⟩
    · split
      · exact ⟨rfl, htick⟩
      · exact ⟨rfl, htick⟩

theorem runPaced (h : Spends cost R) {maxSteps : Int}
    (hr : R (price cost (m.executed (Operation.runPaced maxSteps pace).attempts) + k) m n) :
    SameAnswer (R k) (m.runPaced maxSteps pace) (n.runPaced maxSteps pace) := by
  simp only [Operation.attempts] at hr
  split at hr
  · rename_i hidle
    rw [executed_nil, price_nil_add] at hr
    rcases hidle with hm | hp
    · rw [runPaced_of_budget_nonpos hm, runPaced_of_budget_nonpos hm]
      exact ⟨rfl, hr⟩
    · exact h.paceFrom_of_pace_nonpos hp hr
  · exact h.paceFrom (by omega) n hr

theorem ran (h : Spends cost R) {before before' after after' : Machine} {i : Nat}
    (hb : R i before before') (ha : R k after after') (answer : Answer) :
    SameAnswer (R k) (before.ran answer after) (before'.ran answer after') := by
  refine ⟨?_, ha⟩
  simp only [Machine.ran, Machine.haltRecords, h.faults hb, h.faults ha]

/-- Steps, ticks and batches of them get the same reply from both, if what they execute can be
paid. -/
theorem perform (h : Spends cost R) (hop : op = .step ∨ op = .tick ∨ op.isBatch = true)
    (hr : R (price cost (m.executed (m.unrolled op)) + k) m n) :
    SameAnswer (R k) (m.perform op) (n.perform op) := by
  rw [executed_unrolled] at hr
  cases op with
  | step =>
    obtain ⟨hb, hlast⟩ := h.step hr
    simp only [Machine.perform, hb]
    exact h.ran hr hlast _
  | tick =>
    have hnothing : m.executed (Operation.attempts .tick) = [] := rfl
    rw [hnothing, price_nil_add] at hr
    exact ⟨rfl, h.tick hr⟩
  | run size =>
    obtain ⟨hcount, hlast⟩ := h.runFrom 0 hr
    simp only [Machine.perform, Machine.run, hcount]
    exact h.ran hr hlast _
  | runFrame size =>
    have hr' := hr
    rw [Operation.attempts, executed_concat_tick] at hr'
    obtain ⟨hcount, hlast⟩ := h.runFrame hr'
    simp only [Machine.perform, hcount]
    exact h.ran hr hlast _
  | runPaced maxSteps pace =>
    obtain ⟨hpace, hlast⟩ := h.runPaced hr
    refine ⟨?_, hlast⟩
    simp only [Machine.perform, Machine.haltRecords, hpace, h.faults hr, h.faults hlast]
  | _ => simp [Operation.isBatch] at hop

/-- A whole run gets the same replies from both, if what it executes can be paid and the host's own
doings cost nothing. -/
theorem performAll (h : Spends cost R)
    (hhost : ∀ {k m n op}, op.isBatch = false → op ≠ .step → op ≠ .tick → R k m n →
      SameAnswer (R k) (m.perform op) (n.perform op))
    (hr : R (price cost (m.executions ops) + k) m n) :
    SameAnswer (R k) (m.performAll ops) (n.performAll ops) := by
  induction ops generalizing m n with
  | nil =>
    have hnothing : m.executions [] = [] := rfl
    rw [hnothing, price_nil_add] at hr
    exact ⟨rfl, hr⟩
  | cons op ops ih =>
    rw [executions_cons, price_append_add] at hr
    have hfirst : SameAnswer (R (price cost ((m.perform op).2.executions ops) + k))
        (m.perform op) (n.perform op) := by
      by_cases hop : op = .step ∨ op = .tick ∨ op.isBatch = true
      · exact h.perform hop hr
      · have hother : op ≠ .step ∧ op ≠ .tick ∧ op.isBatch = false := by simpa using hop
        obtain ⟨hs, ht, hb⟩ := hother
        rw [executed_unrolled_of_host hb hs, price_nil_add] at hr
        exact hhost hb hs ht hr
    obtain ⟨hreply, hnext⟩ := hfirst
    obtain ⟨hreplies, hlast⟩ := ih hnext
    refine ⟨?_, hlast⟩
    simp only [Machine.performAll, hreply, hreplies]

end Spends

end Chip8.Machine
