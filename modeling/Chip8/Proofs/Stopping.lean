import Chip8.Proofs.Executions
import Chip8.Proofs.Waiting

/-! The end of a paced run. A run that stops before its budget is spent leaves a machine that
nothing but the host can get going again. -/
namespace Chip8.Machine

variable {m m' last : Machine} {maxSteps perTick : Int} {steps frames n f k : Nat}
  {ops : List Operation}

/-- The loop of a paced run, `steps` instructions and `frames` frames into it, comes to the machine
`last` after `n` instructions and `f` frames in all. An empty frame does not end it. -/
inductive Loops (maxSteps perTick : Int) : Nat → Nat → Machine → Nat → Nat → Machine → Prop
  | spent {steps frames : Nat} {m : Machine} (h : maxSteps ≤ steps) :
      Loops maxSteps perTick steps frames m steps frames m
  | ended {steps frames k : Nat} {m m' : Machine} (h : steps < maxSteps)
      (hr : m.runFrame (min perTick (maxSteps - steps)) = (k, m'))
      (he : m'.halted = true ∨ m'.blocked = true) :
      Loops maxSteps perTick steps frames m (steps + k) (frames + 1) m'
  | again {steps frames k n f : Nat} {m m' last : Machine} (h : steps < maxSteps)
      (hr : m.runFrame (min perTick (maxSteps - steps)) = (k, m'))
      (he : ¬ (m'.halted = true ∨ m'.blocked = true))
      (hrest : Loops maxSteps perTick (steps + k) (frames + 1) m' n f last) :
      Loops maxSteps perTick steps frames m n f last

theorem Loops.unique {n' f' : Nat} {last' : Machine}
    (h : Loops maxSteps perTick steps frames m n f last)
    (h' : Loops maxSteps perTick steps frames m n' f' last') :
    n' = n ∧ f' = f ∧ last' = last := by
  induction h with
  | spent hspent =>
    cases h' with
    | spent => exact ⟨rfl, rfl, rfl⟩
    | ended hlt => omega
    | again hlt => omega
  | ended hlt hr he =>
    cases h' with
    | spent hspent => omega
    | ended _ hr' _ =>
      cases hr.symm.trans hr'
      exact ⟨rfl, rfl, rfl⟩
    | again _ hr' he' =>
      cases hr.symm.trans hr'
      exact absurd he he'
  | again hlt hr he _ ih =>
    cases h' with
    | spent hspent => omega
    | ended _ hr' he' =>
      cases hr.symm.trans hr'
      exact absurd he' he
    | again _ hr' _ hrest' =>
      cases hr.symm.trans hr'
      exact ih hrest'

/-- With frames of some size the loop comes to its end. -/
theorem loops_paceFrom (hp : 1 ≤ perTick) {left : Nat} (hl : left = (maxSteps - steps).toNat) :
    Loops maxSteps perTick steps frames m (m.paceFrom perTick steps frames left).1.steps
      (m.paceFrom perTick steps frames left).1.frames
      (m.paceFrom perTick steps frames left).2 := by
  fun_induction paceFrom perTick steps frames left m with
  | case1 => exact .spent (by omega)
  | case2 steps frames left m hleft r hhalted =>
    have hbudget : maxSteps - steps = (left : Int) := by omega
    exact .ended (by omega) (by rw [hbudget]) (.inl hhalted)
  | case3 steps frames left m hleft r hhalted hblocked =>
    have hbudget : maxSteps - steps = (left : Int) := by omega
    exact .ended (by omega) (by rw [hbudget]) (.inr hblocked)
  | case4 steps frames left m hleft r hhalted hblocked hzero =>
    -- a frame without an instruction means a machine that cannot step
    have hbatch : Batch m (min perTick.toNat left) r.1 (m.run (min perTick left)).2 :=
      frame_batch hp
    rcases ready?_eq_none_iff.mp (hbatch.stuck (by omega)) with hh | hb
    · exact absurd hh hhalted
    · exact absurd hb hblocked
  | case5 steps frames left m hleft r hhalted hblocked hzero ih =>
    have hbudget : maxSteps - steps = (left : Int) := by omega
    have hframe : m.runFrame (min perTick (maxSteps - steps)) = (r.1, r.2) := by rw [hbudget]
    exact .again (by omega) hframe (not_or.mpr ⟨hhalted, hblocked⟩) (ih (by omega))

/-- The loop of a run comes to one end only. -/
theorem loops_iff (hp : 1 ≤ perTick) : Loops maxSteps perTick 0 0 m n f last ↔
    n = (m.runPaced maxSteps perTick).1.steps ∧ f = (m.runPaced maxSteps perTick).1.frames ∧
      last = (m.runPaced maxSteps perTick).2 := by
  have hrun : Loops maxSteps perTick 0 0 m (m.runPaced maxSteps perTick).1.steps
      (m.runPaced maxSteps perTick).1.frames (m.runPaced maxSteps perTick).2 :=
    loops_paceFrom hp (by simp)
  constructor
  · intro h
    exact hrun.unique h
  · rintro ⟨rfl, rfl, rfl⟩
    exact hrun

theorem frames_runPaced_le (m : Machine) (hp : 1 ≤ perTick) :
    ((m.runPaced maxSteps perTick).1.frames : Int) ≤ max 1 maxSteps := by
  by_cases hb : maxSteps ≤ 0
  · rw [runPaced_of_budget_nonpos hb]
    simp
  · obtain ⟨-, hpaced⟩ := runPaced_paced (m := m) hp (show 0 < maxSteps by omega)
    have hpace : 0 < perTick.toNat := by omega
    have hframes := hpaced.frames_eq.trans (count_tick_schedule hpace _)
    -- a frame holds one instruction or more
    have hle : (m.runPaced maxSteps perTick).1.steps ⌈/⌉ perTick.toNat ≤
        (m.runPaced maxSteps perTick).1.steps :=
      (ceilDiv_le_iff_le_mul hpace).mpr (Nat.le_mul_of_pos_left _ hpace)
    have hcount := hpaced.count_le
    omega

theorem stuck_of_steps_lt (hp : 1 ≤ perTick)
    (h : ((m.runPaced maxSteps perTick).1.steps : Int) < maxSteps) :
    (m.runPaced maxSteps perTick).2.ready? = none := by
  obtain ⟨-, hpaced⟩ := runPaced_paced (m := m) hp (show 0 < maxSteps by omega)
  exact hpaced.stuck (by omega)

theorem blocked_iff : m.blocked = true ↔
    m.keypad.waiting ≠ none ∧ ∀ k, m.keypad.isHeld k = false := by
  rw [blocked, Bool.and_eq_true, Option.isSome_iff_ne_none, Option.isNone_iff_eq_none,
    Keypad.firstHeld?_eq_none_iff]

theorem held_runPaced (m : Machine) (maxSteps perTick : Int) :
    (m.runPaced maxSteps perTick).2.keypad.held = m.keypad.held := by
  rw [runPaced_last]
  split
  · rfl
  · exact held_after fun op hop => mem_schedule hop

/-- For a machine that cannot step, time passes and nothing else. -/
theorem after_of_stuck (h : m.ready? = none) (hops : ∀ op ∈ ops, op = .step ∨ op = .tick) :
    m.after ops = m.setTimers (m.timers.ticks (ops.count .tick)) := by
  induction ops generalizing m with
  | nil => rfl
  | cons op ops ih =>
    have htail : ∀ o ∈ ops, o = .step ∨ o = .tick := fun o ho => hops o (by simp [ho])
    rcases hops op (by simp) with rfl | rfl
    · rw [after_cons, perform_step, step_of_not_ready h]
      exact ih h htail
    · rw [List.count_cons_self]
      exact ih (tick_ready?.mpr h) htail

theorem singles_of_batches (hops : ∀ op ∈ ops, op = .step ∨ op = .tick ∨ op.isBatch = true) :
    ∀ op ∈ m.singles ops, op = .step ∨ op = .tick := by
  intro op hop
  rcases mem_singles hop with ⟨hb, hop⟩ | hop
  · rcases hops op hop with rfl | rfl | hbatch
    · exact .inl rfl
    · exact .inr rfl
    · cases hb.symm.trans hbatch
  · exact hop

/-- A paced run in frames of some size comes to an end as its loop does, with at most one frame for
each instruction of its budget, and with the keys held that were held before. If it stops before
the budget is spent, the machine has halted, or it waits for a key with none held; it executes
nothing more, however it is stepped, and can only have halted if some key was held. -/
theorem paced_run_ends_for_good (m : Machine) (maxSteps perTick : Int) (hp : 1 ≤ perTick) :
    let p := (m.runPaced maxSteps perTick).1
    let last := (m.runPaced maxSteps perTick).2
    (∀ steps frames after, Loops maxSteps perTick 0 0 m steps frames after ↔
      steps = p.steps ∧ frames = p.frames ∧ after = last) ∧
    (p.frames : Int) ≤ max 1 maxSteps ∧ last.keypad.held = m.keypad.held ∧
    ((p.steps : Int) < maxSteps →
      (last.halted = true ∨
        (last.keypad.waiting ≠ none ∧ ∀ k, last.keypad.isHeld k = false)) ∧
      (∀ ops, (∀ op ∈ ops, op = .step ∨ op = .tick ∨ op.isBatch = true) →
        last.executions ops = [] ∧ ∃ t, last.after ops = last.setTimers t) ∧
      ((∃ k, m.keypad.isHeld k = true) → last.halted = true)) := by
  intro p last
  have hheld : last.keypad.held = m.keypad.held := m.held_runPaced maxSteps perTick
  refine ⟨fun steps frames after => loops_iff hp, m.frames_runPaced_le hp, hheld, fun h => ?_⟩
  have hstuck : last.ready? = none := stuck_of_steps_lt hp h
  have hwhy : last.halted = true ∨
      (last.keypad.waiting ≠ none ∧ ∀ k, last.keypad.isHeld k = false) := by
    rw [← blocked_iff]
    exact ready?_eq_none_iff.mp hstuck
  refine ⟨hwhy, fun ops hops => ?_, fun ⟨k, hk⟩ => ?_⟩
  · have hsingles := singles_of_batches (m := last) hops
    rw [← executed_singles, ← after_singles]
    exact ⟨executed_of_stuck hstuck hsingles, _, after_of_stuck hstuck hsingles⟩
  · rcases hwhy with hhalted | ⟨-, hnone⟩
    · exact hhalted
    · have hkey : last.keypad.isHeld k = m.keypad.isHeld k := by
        rw [Keypad.isHeld, hheld, Keypad.isHeld]
      cases (hnone k).symm.trans (hkey.trans hk)

/-- A program that waits for a key, and has nothing behind that. -/
def onlyWait : List Operation := [.poke 0x200 0xF0, .poke 0x201 0x0A]

set_option maxRecDepth 100000 in
/-- It stops in its first frame, and does not go on by itself. With a key held it halts instead. -/
theorem only_wait_stops :
    let m := (initial {} (.listed [0] 0)).after onlyWait
    let held := m.after [.setKey 3 true]
    let last := (m.runPaced 25 10).2
    let ops : List Operation := [.run 5, .tick, .step, .runFrame 3]
    ((m.runPaced 25 10).1.steps = 1 ∧ (m.runPaced 25 10).1.frames = 1 ∧
      last.keypad.waiting = some 0 ∧ last.executions ops = [] ∧
      ∃ t, last.after ops = last.setTimers t) ∧
      ((∃ k, held.keypad.isHeld k = true) ∧ (held.runPaced 25 10).1.steps = 2 ∧
        (held.runPaced 25 10).2.halted = true) := by
  intro m held last ops
  have hrun : (m.runFrame 10).1 = 1 ∧ (m.runFrame 10).2.blocked = true ∧
      (m.runFrame 10).2.keypad.waiting = some 0 ∧ held.keypad.isHeld 3 = true ∧
      (held.runFrame 10).1 = 2 ∧ (held.runFrame 10).2.halted = true := by decide +kernel
  obtain ⟨hone, hblocked, hwaiting, hkey, htwo, hhalted⟩ := hrun
  obtain ⟨hloop, -, -, hearly⟩ := paced_run_ends_for_good m 25 10 (by decide)
  obtain ⟨hloopHeld, -, -, hearlyHeld⟩ := paced_run_ends_for_good held 25 10 (by decide)
  have hbudget : min (10 : Int) (25 - (0 : Nat)) = 10 := rfl
  have hframe : m.runFrame (min 10 (25 - (0 : Nat))) = (1, (m.runFrame 10).2) := by
    rw [hbudget]
    exact Prod.ext hone rfl
  have hframeHeld : held.runFrame (min 10 (25 - (0 : Nat))) = (2, (held.runFrame 10).2) := by
    rw [hbudget]
    exact Prod.ext htwo rfl
  obtain ⟨hcount, hframes, hlast⟩ := (hloop _ _ _).mp (.ended (by decide) hframe (.inr hblocked))
  obtain ⟨hcountHeld, -, -⟩ :=
    (hloopHeld _ _ _).mp (.ended (by decide) hframeHeld (.inl hhalted))
  have hwait : last.keypad.waiting = some 0 :=
    (congrArg (fun n => n.keypad.waiting) hlast).symm.trans hwaiting
  obtain ⟨-, hquiet, -⟩ := hearly (by rw [← hcount]; decide)
  obtain ⟨-, -, hhalt⟩ := hearlyHeld (by rw [← hcountHeld]; decide)
  obtain ⟨hnothing, htimers⟩ := hquiet ops (by simp [ops, Operation.isBatch])
  exact ⟨⟨hcount.symm, hframes.symm, hwait, hnothing, htimers⟩,
    ⟨3, hkey⟩, hcountHeld.symm, hhalt ⟨3, hkey⟩⟩

end Chip8.Machine
