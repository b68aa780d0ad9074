import Chip8.Proofs.Batch
import Mathlib.Algebra.Order.Floor.Div

/-! A paced run keeps to a schedule of single steps and ticks that its length alone decides. Only
its last frame can be short. -/
namespace Chip8

/-- `n` steps, with a tick behind every `perTick`-th one. -/
def pacedSteps (perTick : Nat) : Nat → List Operation
  | 0 => []
  | n + 1 => pacedSteps perTick n ++ if perTick ∣ n + 1 then [.step, .tick] else [.step]

/-- A last frame that is not full, or has no step at all, has its tick too. -/
def schedule (perTick n : Nat) : List Operation :=
  pacedSteps perTick n ++ if 0 < n ∧ perTick ∣ n then [] else [.tick]

variable {perTick n k : Nat}

theorem pacedSteps_of_lt (h : n < perTick) : pacedSteps perTick n = List.replicate n .step := by
  induction n with
  | zero => rfl
  | succ n ih =>
    have hd : ¬ perTick ∣ n + 1 := fun hd => by
      have := Nat.le_of_dvd (by omega) hd
      omega
    rw [pacedSteps, ih (by omega), if_neg hd, List.replicate_succ']

theorem pacedSteps_frame (h : 0 < perTick) :
    pacedSteps perTick perTick = List.replicate perTick .step ++ [.tick] := by
  obtain ⟨n, rfl⟩ : ∃ n, perTick = n + 1 := ⟨perTick - 1, by omega⟩
  conv_lhs => rw [pacedSteps]
  rw [pacedSteps_of_lt (by omega), if_pos (Nat.dvd_refl _), List.replicate_succ']
  simp

theorem pacedSteps_add (perTick n : Nat) :
    pacedSteps perTick (perTick + n) = pacedSteps perTick perTick ++ pacedSteps perTick n := by
  induction n with
  | zero => simp [pacedSteps]
  | succ n ih =>
    have hd : perTick ∣ perTick + n + 1 ↔ perTick ∣ n + 1 := by
      rw [Nat.add_assoc]
      exact Nat.dvd_add_right (Nat.dvd_refl perTick)
    rw [← Nat.add_assoc, pacedSteps, ih, pacedSteps]
    simp only [hd, List.append_assoc]

theorem pacedSteps_split (perTick : Nat) (h : k ≤ n) :
    ∃ rest, pacedSteps perTick n = pacedSteps perTick k ++ rest := by
  induction n, h using Nat.le_induction with
  | base => exact ⟨[], by simp⟩
  | succ n _ ih =>
    obtain ⟨rest, hr⟩ := ih
    exact ⟨_, by rw [pacedSteps, hr, List.append_assoc]⟩

theorem count_step_pacedSteps (perTick n : Nat) : (pacedSteps perTick n).count .step = n := by
  induction n with
  | zero => rfl
  | succ n ih =>
    rw [pacedSteps, List.count_append, ih]
    split <;> rfl

theorem count_tick_pacedSteps (perTick n : Nat) :
    (pacedSteps perTick n).count .tick = n / perTick := by
  induction n with
  | zero => simp [pacedSteps]
  | succ n ih =>
    rw [pacedSteps, List.count_append, ih, Nat.succ_div]
    split <;> rfl

theorem count_tick_schedule (h : 0 < perTick) (n : Nat) :
    (schedule perTick n).count .tick = max 1 (n ⌈/⌉ perTick) := by
  have hn := Nat.div_add_mod n perTick
  have hr := Nat.mod_lt n h
  rw [schedule, List.count_append, count_tick_pacedSteps, Nat.ceilDiv_eq_add_pred_div]
  simp only [Nat.dvd_iff_mod_eq_zero]
  generalize n / perTick = q at hn ⊢
  generalize n % perTick = r at hn hr ⊢
  rcases Nat.eq_zero_or_pos r with rfl | hpos
  · have hceil : (n + perTick - 1) / perTick = q :=
      Nat.div_eq_of_lt_le (by rw [Nat.mul_comm]; omega) (by rw [Nat.succ_mul, Nat.mul_comm]; omega)
    rw [hceil]
    rcases Nat.eq_zero_or_pos n with rfl | hnpos
    · obtain rfl : q = 0 := by
        rcases Nat.mul_eq_zero.mp (show perTick * q = 0 by omega) with h0 | h0 <;> omega
      rfl
    · have hq : 0 < q := by
        apply Nat.pos_of_ne_zero
        rintro rfl
        omega
      rw [if_pos ⟨hnpos, rfl⟩, List.count_nil]
      omega
  · have hceil : (n + perTick - 1) / perTick = q + 1 :=
      Nat.div_eq_of_lt_le (by rw [Nat.succ_mul, Nat.mul_comm]; omega)
        (by rw [Nat.succ_mul, Nat.succ_mul, Nat.mul_comm]; omega)
    rw [hceil, if_neg (by omega)]
    simp only [List.count_cons_self, List.count_nil]
    omega

theorem schedule_frame (hp : 0 < perTick) (h : n ≤ perTick) :
    schedule perTick n = List.replicate n .step ++ [.tick] := by
  rcases Nat.lt_or_eq_of_le h with h | rfl
  · have hd : ¬ (0 < n ∧ perTick ∣ n) := fun ⟨hn, hd⟩ => by
      have := Nat.le_of_dvd hn hd
      omega
    rw [schedule, pacedSteps_of_lt h, if_neg hd]
  · rw [schedule, pacedSteps_frame hp, if_pos ⟨hp, Nat.dvd_refl _⟩, List.append_nil]

theorem schedule_add (h : 0 < n) :
    schedule perTick (perTick + n) = pacedSteps perTick perTick ++ schedule perTick n := by
  have hd : (0 < perTick + n ∧ perTick ∣ perTick + n) ↔ (0 < n ∧ perTick ∣ n) := by
    rw [Nat.dvd_add_right (Nat.dvd_refl perTick)]
    omega
  simp only [schedule, pacedSteps_add, hd, List.append_assoc]

/-- The `k`-th step of a schedule comes after `k / perTick` ticks. -/
theorem schedule_split (h : k < n) : ∃ rest,
    schedule perTick n = pacedSteps perTick k ++ .step :: rest := by
  obtain ⟨rest, hr⟩ := pacedSteps_split perTick (show k + 1 ≤ n from h)
  rw [schedule, hr, pacedSteps]
  split
  · exact ⟨_, by simp only [List.append_assoc, List.cons_append]; rfl⟩
  · exact ⟨_, by simp only [List.append_assoc, List.cons_append]; rfl⟩

namespace Machine

variable {m last : Machine} {budget frames : Nat}

theorem tick_ready? : m.tick.ready? = none ↔ m.ready? = none := by
  rw [ready?_eq_none_iff, ready?_eq_none_iff]
  rfl

/-- What a paced run with `budget` instructions to go comes to after `n` of them. -/
structure Paced (perTick : Nat) (m : Machine) (budget n frames : Nat) (last : Machine) : Prop where
  count_le : n ≤ budget
  last_eq : last = m.after (schedule perTick n)
  frames_eq : frames = (schedule perTick n).count .tick
  executes : ∀ k < n, (m.after (pacedSteps perTick k)).step.1 = true
  steps_eq : last.steps = m.steps + n
  progress : m.ready? ≠ none → 0 < n
  stuck : n < budget → last.ready? = none

/-- A frame that is the last one, be it full or short. -/
theorem paced_frame (hp : 0 < perTick) (hb : 0 < budget)
    (h : Batch m (min perTick budget) k last) (hl : k = budget ∨ last.ready? = none) :
    Paced perTick m budget k 1 last.tick := by
  have hk := h.count_le
  have hs : schedule perTick k = List.replicate k .step ++ [.tick] := schedule_frame hp (by omega)
  constructor
  · omega
  · rw [hs, after_append, ← h.last_eq]
    rfl
  · rw [hs, List.count_append]
    simp [List.count_replicate]
  · intro j hj
    rw [pacedSteps_of_lt (by omega)]
    exact h.executes j hj
  · change last.steps = _
    rw [h.last_eq, h.executes.steps_eq]
  · intro hr
    by_contra hk0
    obtain rfl : k = 0 := by omega
    have hstuck := h.stuck (by omega)
    rw [h.last_eq] at hstuck
    exact hr hstuck
  · intro hlt
    rcases hl with rfl | hl
    · omega
    · exact tick_ready?.mpr hl

/-- A full frame with another one behind it. -/
theorem paced_add {mid : Machine} (hp : 0 < perTick) (h : Batch m perTick perTick mid)
    (hn : 0 < n) (ht : Paced perTick mid.tick budget n frames last) :
    Paced perTick m (perTick + budget) (perTick + n) (1 + frames) last := by
  have hf : m.after (pacedSteps perTick perTick) = mid.tick := by
    rw [pacedSteps_frame hp, after_append, ← h.last_eq]
    rfl
  constructor
  · have := ht.count_le
    omega
  · rw [schedule_add hn, after_append, hf]
    exact ht.last_eq
  · rw [schedule_add hn, List.count_append, ← ht.frames_eq, count_tick_pacedSteps, Nat.div_self hp]
  · intro k hk
    rcases Nat.lt_or_ge k perTick with hlt | hge
    · rw [pacedSteps_of_lt hlt]
      exact h.executes k hlt
    · obtain ⟨j, rfl⟩ : ∃ j, k = perTick + j := ⟨k - perTick, by omega⟩
      rw [pacedSteps_add, after_append, hf]
      exact ht.executes j (by omega)
  · rw [ht.steps_eq]
    change mid.steps + n = _
    rw [h.last_eq, h.executes.steps_eq]
    omega
  · intro _
    omega
  · intro hlt
    exact ht.stuck (by omega)

theorem frame_batch {pace : Int} {left : Nat} (hp : 1 ≤ pace) :
    Batch m (min pace.toNat left) (m.runFrame (min pace left)).1 (m.run (min pace left)).2 := by
  have h := m.run_batch (min pace left)
  rw [show (min pace (left : Int)).toNat = min pace.toNat left by omega] at h
  exact h

theorem paceFrom_paced (m : Machine) {pace : Int} (steps frames : Nat) {left : Nat} (hp : 1 ≤ pace)
    (hl : 0 < left) :
    ∃ n f, (m.paceFrom pace steps frames left).1.steps = steps + n ∧
      (m.paceFrom pace steps frames left).1.frames = frames + f ∧
      (m.paceFrom pace steps frames left).1.ending ≠ .idle ∧
      Paced pace.toNat m left n f (m.paceFrom pace steps frames left).2 := by
  fun_induction paceFrom pace steps frames left m with
  | case1 => omega
  | case2 steps frames left m _ r hhalted =>
    have hr : (m.run (min pace left)).2.ready? = none := ready?_eq_none_iff.mpr (.inl hhalted)
    exact ⟨r.1, 1, rfl, rfl, by simp, paced_frame (by omega) hl (frame_batch hp) (.inr hr)⟩
  | case3 steps frames left m _ r _ hblocked =>
    have hr : (m.run (min pace left)).2.ready? = none := ready?_eq_none_iff.mpr (.inr hblocked)
    exact ⟨r.1, 1, rfl, rfl, by simp, paced_frame (by omega) hl (frame_batch hp) (.inr hr)⟩
  | case4 steps frames left m _ r hhalted hblocked hzero =>
    -- an empty frame means a machine that cannot step, which was told apart before
    have hb : Batch m (min pace.toNat left) r.1 (m.run (min pace left)).2 := frame_batch hp
    rcases ready?_eq_none_iff.mp (hb.stuck (by omega)) with hh | hb
    · exact absurd hh hhalted
    · exact absurd hb hblocked
  | case5 steps frames left m _ r hhalted hblocked hzero ih =>
    have hb : Batch m (min pace.toNat left) r.1 (m.run (min pace left)).2 := frame_batch hp
    have hready : (m.run (min pace left)).2.ready? ≠ none := fun hr => by
      rcases ready?_eq_none_iff.mp hr with hh | hb
      · exact hhalted hh
      · exact hblocked hb
    have hfull : r.1 = min pace.toNat left := by
      have := hb.count_le
      by_contra hne
      exact hready (hb.stuck (by omega))
    rcases Nat.lt_or_ge r.1 left with hlt | hge
    · have hpace : r.1 = pace.toNat := by omega
      obtain ⟨n, f, hsteps, hframes, hidle, ht⟩ := ih (by omega)
      refine ⟨pace.toNat + n, 1 + f, by omega, by omega, hidle, ?_⟩
      have hn : 0 < n := ht.progress fun hr => hready (tick_ready?.mp hr)
      rw [← hfull, hpace] at hb
      have hsum := paced_add (by omega) hb hn ht
      rwa [show pace.toNat + (left - r.1) = left by omega] at hsum
    · have hleft : left - r.1 = 0 := by omega
      refine ⟨r.1, 1, ?_, ?_, ?_, ?_⟩
      all_goals rw [hleft, paceFrom]
      · rfl
      · rfl
      · simp
      · exact paced_frame (by omega) hl hb (.inl (by omega))

theorem runPaced_of_budget_nonpos {maxSteps pace : Int} (h : maxSteps ≤ 0) :
    m.runPaced maxSteps pace = (⟨0, 0, .spent⟩, m) := by
  rw [runPaced, show maxSteps.toNat = 0 by omega, paceFrom]
  rfl

theorem runPaced_paced {maxSteps pace : Int} (hp : 1 ≤ pace) (h : 0 < maxSteps) :
    (m.runPaced maxSteps pace).1.ending ≠ .idle ∧
      Paced pace.toNat m maxSteps.toNat (m.runPaced maxSteps pace).1.steps
        (m.runPaced maxSteps pace).1.frames (m.runPaced maxSteps pace).2 := by
  obtain ⟨n, f, hn, hf, hidle, hpaced⟩ :=
    m.paceFrom_paced 0 0 hp (show 0 < maxSteps.toNat by omega)
  rw [Nat.zero_add] at hn hf
  subst hn hf
  exact ⟨hidle, hpaced⟩

/-- Frames of no size come to one tick. -/
theorem runPaced_of_pace_nonpos {maxSteps pace : Int} (hp : pace ≤ 0) (h : 0 < maxSteps) :
    ∃ ending, m.runPaced maxSteps pace = (⟨0, 1, ending⟩, m.tick) := by
  have hr : m.runFrame (min pace maxSteps.toNat) = (0, m.tick) := by
    rw [runFrame, run, show (min pace (maxSteps.toNat : Int)).toNat = 0 by omega]
    rfl
  rw [runPaced, paceFrom, if_neg (by omega)]
  simp only [hr]
  split
  · exact ⟨.halted, rfl⟩
  · split
    · exact ⟨.blocked, rfl⟩
    · exact ⟨.idle, rfl⟩

theorem runPaced_last (m : Machine) (maxSteps pace : Int) : (m.runPaced maxSteps pace).2 =
    m.after (if maxSteps ≤ 0 then [] else
      schedule pace.toNat (m.runPaced maxSteps pace).1.steps) := by
  split
  · rw [runPaced_of_budget_nonpos ‹_›]
    rfl
  · by_cases hp : 1 ≤ pace
    · exact (runPaced_paced hp (by omega)).2.last_eq
    · obtain ⟨ending, hr⟩ := runPaced_of_pace_nonpos (m := m) (show pace ≤ 0 by omega)
        (show 0 < maxSteps by omega)
      rw [hr]
      rfl

/-- A paced run is its schedule: steps one at a time, all of them executed, a tick behind every
`pace`-th one and one more behind a last frame that is not full. -/
theorem runPaced_keeps_schedule (m : Machine) (maxSteps pace : Int) (hp : 1 ≤ pace) :
    (maxSteps ≤ 0 → m.runPaced maxSteps pace = (⟨0, 0, .spent⟩, m)) ∧
    (0 < maxSteps → ∃ steps frames ending last,
      m.runPaced maxSteps pace = (⟨steps, frames, ending⟩, last) ∧ ending ≠ .idle ∧
      steps ≤ maxSteps.toNat ∧ frames = max 1 (steps ⌈/⌉ pace.toNat) ∧
      last.steps = m.steps + steps ∧ last = m.after (schedule pace.toNat steps) ∧
      (schedule pace.toNat steps).count .tick = frames ∧
      ∀ k < steps,
        (∃ rest, schedule pace.toNat steps = pacedSteps pace.toNat k ++ .step :: rest) ∧
        (pacedSteps pace.toNat k).count .step = k ∧
        (pacedSteps pace.toNat k).count .tick = k / pace.toNat ∧
        (m.after (pacedSteps pace.toNat k)).step.1 = true) := by
  refine ⟨fun h => runPaced_of_budget_nonpos h, fun h => ?_⟩
  obtain ⟨hidle, hpaced⟩ := runPaced_paced (m := m) hp h
  refine ⟨_, _, _, _, rfl, hidle, hpaced.count_le, ?_, hpaced.steps_eq, hpaced.last_eq,
    hpaced.frames_eq.symm, ?_⟩
  · exact hpaced.frames_eq.trans (count_tick_schedule (by omega) _)
  · intro k hk
    exact ⟨schedule_split hk, count_step_pacedSteps _ k, count_tick_pacedSteps _ k,
      hpaced.executes k hk⟩

set_option maxRecDepth 100000 in
/-- A jump to itself, with five on the delay timer. Two frames are full, and the last one is not. -/
theorem jump_fills_three_frames :
    let m := (initial {} (.listed [0] 0)).after [.load [0x12, 0x00], .setDelay 5]
    ((1 : Int) ≤ 10 ∧ (0 : Int) < 25) ∧ ∃ last, m.runPaced 25 10 = (⟨25, 3, .spent⟩, last) ∧
      last = m.after (schedule 10 25) ∧ last.steps = 25 ∧ last.timers.delay = 2 ∧
      (schedule 10 25).count .tick = 3 ∧ (pacedSteps 10 24).count .step = 24 ∧
      (pacedSteps 10 24).count .tick = 2 ∧ (m.after (pacedSteps 10 24)).step.1 = true := by
  intro m
  have hloaded : m.steps = 0 := by decide +kernel
  have hends : (m.runPaced 25 10).1 = ⟨25, 3, .spent⟩ ∧
      (m.runPaced 25 10).2.timers.delay = 2 := by decide +kernel
  obtain ⟨steps, frames, ending, last, hrun, -, -, -, hsteps, hlast, hticks, hstep⟩ :=
    (runPaced_keeps_schedule m 25 10 (by decide)).2 (by decide)
  rw [hrun] at hends
  obtain ⟨hpace, hdelay⟩ := hends
  obtain ⟨rfl, rfl, rfl⟩ := Pace.mk.inj hpace
  obtain ⟨-, hexecuted, hbefore, hlate⟩ := hstep 24 (by decide)
  rw [hloaded, Nat.zero_add] at hsteps
  exact ⟨⟨by decide, by decide⟩, last, hrun, hlast, hsteps, hdelay, hticks, hexecuted, hbefore,
    hlate⟩

end Machine

end Chip8
