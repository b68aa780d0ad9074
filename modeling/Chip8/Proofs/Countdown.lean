import Chip8.Proofs.Executions
import Mathlib.Data.List.DropRight

/-! The timers of any run. Each of them shows what was last written to it, less the ticks since
then. -/
namespace Chip8

inductive Timer
  | delay
  | sound
deriving DecidableEq

namespace Timer

def of : Timer → Timers UInt8 → UInt8
  | delay, t => t.delay
  | sound, t => t.sound

/-- The register that an instruction sets the timer from. -/
def register? : Timer → Instruction → Option (Fin 16)
  | delay, .setDelay x => some x
  | sound, .setSound x => some x
  | _, _ => none

/-- What the host writes to the timer. -/
def hostWrite? : Timer → Operation → Option UInt8
  | delay, .setDelay b => some b
  | sound, .setSound b => some b
  | _, .reset => some 0
  | _, _ => none

end Timer

namespace Event

def written? (timer : Timer) : Event → Option UInt8
  | .executed m => ((Instruction.decode m.fetch).bind timer.register?).map m.register
  | .stuck => none
  | .host op => timer.hostWrite? op

def isTick : Event → Bool
  | .host .tick => true
  | _ => false

end Event

namespace Timer

variable {timer : Timer} {past : List Event} {e : Event} {b : UInt8}

def lastWrite? (timer : Timer) (past : List Event) : Option UInt8 :=
  (past.filterMap (Event.written? timer)).getLast?

/-- What happened since the last write, or all of it if there was none. -/
def since (timer : Timer) (past : List Event) : List Event :=
  past.rtakeWhile fun e => (e.written? timer).isNone

theorem lastWrite?_of_write (h : e.written? timer = some b) :
    timer.lastWrite? (past ++ [e]) = some b := by
  simp [lastWrite?, h]

theorem lastWrite?_of_other (h : e.written? timer = none) :
    timer.lastWrite? (past ++ [e]) = timer.lastWrite? past := by
  simp [lastWrite?, h]

theorem since_of_write (h : e.written? timer = some b) : timer.since (past ++ [e]) = [] :=
  List.rtakeWhile_concat_neg _ _ _ (by simp [h])

theorem since_of_other (h : e.written? timer = none) :
    timer.since (past ++ [e]) = timer.since past ++ [e] :=
  List.rtakeWhile_concat_pos _ _ _ (by simp [h])

theorem lastWrite?_of_none (h : ∀ e ∈ past, e.written? timer = none) :
    timer.lastWrite? past = none := by
  rw [lastWrite?, List.filterMap_eq_nil_iff.mpr h, List.getLast?_nil]

theorem since_of_none (h : ∀ e ∈ past, e.written? timer = none) : timer.since past = past :=
  List.rtakeWhile_eq_self_iff.mpr fun e he => by simp [h e he]

end Timer

theorem toNat_countDown (b : UInt8) : (countDown b).toNat = b.toNat - 1 := by
  unfold countDown
  split
  · rename_i h
    have hpos : 0 < b.toNat := UInt8.lt_iff_toNat_lt.mp h
    exact UInt8.toNat_sub_of_le b 1 (UInt8.le_iff_toNat_le.mpr hpos)
  · rename_i h
    have hzero : ¬ 0 < b.toNat := fun hpos => h (UInt8.lt_iff_toNat_lt.mpr hpos)
    omega

namespace Machine

variable {m d : Machine} {timer : Timer} {op : Operation} {ops : List Operation}

/-! One event. -/

theorem execute_timer (m : Machine) (timer : Timer) (opcode address : UInt16) (i : Instruction) :
    timer.of (m.execute opcode address i).timers =
      ((timer.register? i).map m.register).getD (timer.of m.timers) := by
  have hbranch := m.execute_of_branches opcode address (i := i)
  cases i with
  | ret | call target | skip condition | alu op x y =>
    obtain ⟨_, _, _, _, h⟩ := hbranch rfl
    rw [h]
    cases timer <;> rfl
  | _ => cases timer <;> rfl

theorem cycle_timer (m : Machine) (timer : Timer) : timer.of m.cycle.timers =
    (((Instruction.decode m.fetch).bind timer.register?).map m.register).getD
      (timer.of m.timers) := by
  cases h : Instruction.decode m.fetch with
  | none =>
    rw [cycle_of_no_instruction h]
    rfl
  | some i =>
    rw [cycle_of_instruction h]
    exact execute_timer _ timer m.fetch m.pc i

theorem ready?_timers (h : m.ready? = some d) : d.timers = m.timers := by
  obtain ⟨v, p, rfl⟩ := ready?_eq_some h
  rfl

/-- A timer holds what is written to it, and otherwise goes down by ticks alone. -/
theorem perform_timer (timer : Timer) (hb : op.isBatch = false) :
    timer.of (m.perform op).2.timers = ((m.event op).written? timer).getD
      (if (m.event op).isTick then countDown (timer.of m.timers) else timer.of m.timers) := by
  cases op with
  | step =>
    rcases m.step_cases with ⟨d, hd, hs⟩ | ⟨hd, hs⟩
    · rw [perform_step, hs, event_of_ready hd, cycle_timer, ready?_timers hd]
      rfl
    · rw [perform_step, hs, event_of_not_ready hd]
      rfl
  | run | runFrame | runPaced => cases hb
  | load program =>
    obtain ⟨_, h⟩ := m.load_eq program
    rw [h]
    cases timer <;> rfl
  | setKey index down =>
    obtain ⟨_, h⟩ := m.setKey_eq index down
    rw [h]
    cases timer <;> rfl
  | setNamedKey layout name down =>
    obtain ⟨_, h⟩ := m.setNamedKey_eq layout name down
    rw [h]
    cases timer <;> rfl
  | _ => cases timer <;> rfl

/-! A whole run. -/

/-- The timer shows its last write, or `start` without one, less the ticks since then. -/
def CountedDown (timer : Timer) (start : UInt8) (m : Machine) (past : List Event) : Prop :=
  (timer.of m.timers).toNat =
    ((timer.lastWrite? past).getD start).toNat - (timer.since past).countP Event.isTick

theorem countedDown_event {start : UInt8} {past : List Event} (hb : op.isBatch = false)
    (h : CountedDown timer start m past) :
    CountedDown timer start (m.perform op).2 (past ++ [m.event op]) := by
  have hnext := perform_timer (m := m) timer hb
  unfold CountedDown at h ⊢
  rw [hnext]
  cases hw : (m.event op).written? timer with
  | some b =>
    rw [Timer.lastWrite?_of_write hw, Timer.since_of_write hw]
    rfl
  | none =>
    rw [Timer.lastWrite?_of_other hw, Timer.since_of_other hw, List.countP_append,
      List.countP_singleton, Option.getD_none]
    split
    · rw [toNat_countDown, h, Nat.sub_sub]
    · exact h

theorem countedDown_history (m : Machine) (timer : Timer) (ops : List Operation) :
    CountedDown timer (timer.of m.timers) (m.after ops) (m.history ops) :=
  history_induction (fun _ _ _ hb h => countedDown_event hb h) rfl ops

/-! Ticks, operation by operation. -/

theorem countP_isTick_events (m : Machine) (ops : List Operation) :
    (m.events ops).countP Event.isTick = ops.count .tick := by
  induction ops generalizing m with
  | nil => rfl
  | cons op ops ih =>
    have htick : (m.event op).isTick = (op == .tick) := by
      cases op with
      | step =>
        rcases m.step_cases with ⟨d, hd, -⟩ | ⟨hd, -⟩
        · rw [event_of_ready hd]
          rfl
        · rw [event_of_not_ready hd]
          rfl
      | _ => rfl
    rw [events, List.countP_cons, List.count_cons, ih, htick]

/-- How often an operation lets the timers tick. -/
def ticksIn (m : Machine) : Operation → Nat
  | .tick | .runFrame _ => 1
  | .runPaced maxSteps perTick => (m.runPaced maxSteps perTick).1.frames
  | _ => 0

theorem count_tick_runPaced (m : Machine) (maxSteps perTick : Int) :
    (m.unrolled (.runPaced maxSteps perTick)).count .tick =
      (m.runPaced maxSteps perTick).1.frames := by
  by_cases hb : maxSteps ≤ 0
  · rw [unrolled, if_pos hb, runPaced_of_budget_nonpos hb]
    rfl
  · rw [unrolled, if_neg hb]
    by_cases hp : 1 ≤ perTick
    · exact (runPaced_paced hp (by omega)).2.frames_eq.symm
    · obtain ⟨ending, hr⟩ := runPaced_of_pace_nonpos (m := m) (show perTick ≤ 0 by omega)
        (show 0 < maxSteps by omega)
      rw [hr]
      rfl

theorem countP_isTick_history (m : Machine) (op : Operation) :
    (m.history [op]).countP Event.isTick = m.ticksIn op := by
  rw [history_singleton, countP_isTick_events]
  cases op with
  | run n => exact List.count_eq_zero.mpr fun h => nomatch List.eq_of_mem_replicate h
  | runFrame n =>
    have hsteps : (List.replicate n.toNat Operation.step).count .tick = 0 :=
      List.count_eq_zero.mpr fun h => nomatch List.eq_of_mem_replicate h
    rw [unrolled, List.count_append, hsteps]
    rfl
  | runPaced maxSteps perTick => exact m.count_tick_runPaced maxSteps perTick
  | _ => rfl

/-- After any run each timer shows what a program or the host last wrote to it, or 0 if it was not
written since the machine was switched on or reset, less the ticks since then and never below 0. The
sound is on as long as there were fewer ticks than that. A frame brings one tick, whatever becomes
of its instructions, and neither steps nor runs bring any. So instructions that do not write a timer
leave it alone, however many they are. -/
theorem timers_count_down_from_last_write (config : Config) (source : Random.Source)
    (ops : List Operation) :
    let m := (initial config source).after ops
    let past := (initial config source).history ops
    (∀ timer : Timer, (timer.of m.timers).toNat =
      ((timer.lastWrite? past).getD 0).toNat - (timer.since past).countP Event.isTick) ∧
    (m.timers.soundOn = true ↔
      (Timer.sound.since past).countP Event.isTick < ((Timer.sound.lastWrite? past).getD 0).toNat) ∧
    (∀ (n : Machine) op, (n.history [op]).countP Event.isTick = n.ticksIn op) ∧
    ∀ (timer : Timer) (n : Machine) size, (∀ e ∈ n.history [.run size], e.written? timer = none) →
      timer.of (n.run size).2.timers = timer.of n.timers ∧
      (timer.of (n.runFrame size).2.timers).toNat = (timer.of n.timers).toNat - 1 := by
  intro m past
  have htimer : ∀ timer, CountedDown timer 0 m past := by
    intro timer
    have hstart : timer.of (initial config source).timers = 0 := by cases timer <;> rfl
    have hrun := countedDown_history (initial config source) timer ops
    rw [hstart] at hrun
    exact hrun
  refine ⟨htimer, ?_, countP_isTick_history, fun timer n size hw => ?_⟩
  · have hsound : m.timers.sound.toNat = ((Timer.sound.lastWrite? past).getD 0).toNat -
        (Timer.sound.since past).countP Event.isTick := htimer .sound
    rw [Timers.soundOn, decide_eq_true_eq, UInt8.lt_iff_toNat_lt, hsound]
    exact Nat.sub_pos_iff_lt
  · have hticks : (n.history [.run size]).countP Event.isTick = 0 :=
      n.countP_isTick_history (.run size)
    have hrun : CountedDown timer (timer.of n.timers) (n.run size).2 (n.history [.run size]) :=
      n.countedDown_history timer [.run size]
    rw [CountedDown, Timer.lastWrite?_of_none hw, Timer.since_of_none hw, hticks] at hrun
    have hkept : timer.of (n.run size).2.timers = timer.of n.timers := UInt8.toNat_inj.mp hrun
    have htick : timer.of (n.runFrame size).2.timers =
        countDown (timer.of (n.run size).2.timers) := by cases timer <;> rfl
    exact ⟨hkept, by rw [htick, toNat_countDown, hkept]⟩

/-- A program that sets the delay timer to five and then waits for a key. -/
def waitWithDelay : List Operation :=
  [.load [0x60, 0x05, 0xF0, 0x15, 0xF1, 0x0A], .setSound 1, .runFrame 2]

set_option maxRecDepth 100000 in
/-- The frame in which it sets the timer ticks, and so do the two in which it waits. -/
theorem delay_runs_while_waiting :
    let start := initial {} (.listed [0] 0)
    let m := start.after waitWithDelay
    let ops := waitWithDelay ++ [.runFrame 7, .resetCpu, .step, .runFrame 0]
    (Timer.delay.lastWrite? (start.history ops) = some 5 ∧
      (Timer.delay.since (start.history ops)).countP Event.isTick = 3 ∧
      (Timer.delay.of (start.after ops).timers).toNat = 5 - 3) ∧
      ((start.after ops).timers.soundOn = true ↔ 3 < 1) ∧
      (∀ e ∈ m.history [.run 7], e.written? .delay = none) ∧
      (Timer.delay.of m.timers).toNat = 4 ∧ (Timer.delay.of (m.run 7).2.timers) = 4 ∧
      (Timer.delay.of (m.runFrame 7).2.timers).toNat = 3 ∧
      (m.history [.runFrame 7]).countP Event.isTick = 1 := by
  intro start m ops
  have hpast : Timer.delay.lastWrite? (start.history ops) = some 5 ∧
      (Timer.delay.since (start.history ops)).countP Event.isTick = 3 := by decide +kernel
  have hsound : Timer.sound.lastWrite? (start.history ops) = some 1 ∧
      (Timer.sound.since (start.history ops)).countP Event.isTick = 3 := by decide +kernel
  have hquiet : ∀ e ∈ m.history [.run 7], e.written? .delay = none := by decide +kernel
  have hfour : Timer.delay.of m.timers = 4 := by decide +kernel
  obtain ⟨hall, hon, hticks, hruns⟩ := timers_count_down_from_last_write {} (.listed [0] 0) ops
  obtain ⟨hrun, hframe⟩ := hruns .delay m 7 hquiet
  have hdelay := hall .delay
  rw [hpast.1, hpast.2] at hdelay
  rw [hsound.1, hsound.2] at hon
  rw [hfour] at hrun hframe
  exact ⟨⟨hpast.1, hpast.2, hdelay⟩, hon, hquiet, by rw [hfour]; rfl, hrun, hframe,
    hticks m (.runFrame 7)⟩

end Machine

end Chip8
