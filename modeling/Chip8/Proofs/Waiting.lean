import Chip8.Proofs.Batch

/-! Waiting for a key. A machine that waits lets steps pass until a key is held, and then goes on
with the lowest one. -/
namespace Chip8

/-- No key below the held key `k` is held. -/
def Keypad.Lowest (p : Keypad) (k : Key) : Prop :=
  p.isHeld k = true ∧ ∀ j < k, p.isHeld j = false

instance (p : Keypad) (k : Key) : Decidable (p.Lowest k) := inferInstanceAs (Decidable (_ ∧ _))

namespace Keypad

variable {p : Keypad} {k j : Key}

theorem firstHeld?_eq_some_iff : p.firstHeld? = some k ↔ p.Lowest k := by
  rw [firstHeld?, List.find?_eq_some_iff_getElem, Lowest]
  refine and_congr_right fun _ => ⟨?_, ?_⟩
  · rintro ⟨i, hi, rfl, h⟩ j hj
    rw [List.getElem_finRange] at hj
    simpa using h j hj
  · intro h
    refine ⟨k, by simp, by simp, fun j hj => ?_⟩
    simpa using h ⟨j, by omega⟩ hj

theorem firstHeld?_eq_none_iff : p.firstHeld? = none ↔ ∀ k, p.isHeld k = false := by
  simp [firstHeld?]

theorem exists_lowest (h : p.isHeld j = true) : ∃ k, p.Lowest k := by
  cases hk : p.firstHeld? with
  | some k => exact ⟨k, firstHeld?_eq_some_iff.mp hk⟩
  | none =>
    rw [firstHeld?_eq_none_iff.mp hk j] at h
    cases h

end Keypad

theorem Timers.ticks_add (n k : Nat) (t : Timers UInt8) :
    t.ticks (n + k) = (t.ticks n).ticks k := by
  induction n generalizing t with
  | zero => rw [Nat.zero_add]; rfl
  | succ n ih =>
    rw [Nat.succ_add]
    exact ih t.tick

/-- What a host does while it has the machine wait: steps, ticks, and presses and releases. -/
def Operation.isPolling : Operation → Bool
  | .step | .tick | .setKey _ _ | .setNamedKey _ _ _ | .releaseAll => true
  | _ => false

namespace Machine

variable {m : Machine} {r : Fin 16} {k : Key} {op : Operation} {ops : List Operation}

/-- No step is taken while a key is held. -/
def PollsInVain (m : Machine) : List Operation → Prop
  | [] => True
  | op :: ops => (op = .step → ∀ k, m.keypad.isHeld k = false) ∧ (m.perform op).2.PollsInVain ops

instance decidablePollsInVain (m : Machine) : (ops : List Operation) → Decidable (m.PollsInVain ops)
  | [] => inferInstanceAs (Decidable True)
  | op :: ops =>
    have := decidablePollsInVain (m.perform op).2 ops
    inferInstanceAs (Decidable (_ ∧ _))

/-- The machine `n` ticks later, with other keys held. -/
def polled (m : Machine) (held : Vector Bool 16) (n : Nat) : Machine :=
  { m with keypad := { m.keypad with held := held }, timers := m.timers.ticks n }

theorem polled_polled (m : Machine) (held later : Vector Bool 16) (n k : Nat) :
    (m.polled held n).polled later k = m.polled later (n + k) := by
  simp only [polled, Timers.ticks_add]

theorem ready?_of_waiting (hf : m.fault = none) (hw : m.keypad.waiting = some r) :
    m.ready? = m.keypad.firstHeld?.map fun (k : Key) => m.delivered r k := by
  simp only [ready?, halted, hf, resume?, hw]
  cases m.keypad.firstHeld? with
  | none => rfl
  | some k => rfl

theorem ready?_of_no_key (hf : m.fault = none) (hw : m.keypad.waiting = some r)
    (hk : ∀ k, m.keypad.isHeld k = false) : m.ready? = none := by
  rw [ready?_of_waiting hf hw, Keypad.firstHeld?_eq_none_iff.mpr hk]
  rfl

theorem ready?_of_lowest (hf : m.fault = none) (hw : m.keypad.waiting = some r)
    (hk : m.keypad.Lowest k) : m.ready? = some (m.delivered r k) := by
  rw [ready?_of_waiting hf hw, Keypad.firstHeld?_eq_some_iff.mpr hk]
  rfl

/-- A machine that waits for a key is given the lowest one held, before its next instruction. -/
def Delivers (m n : Machine) : Prop :=
  (m.keypad.waiting = none ∧ n = m) ∨
    ∃ x k, m.keypad.waiting = some x ∧ m.keypad.Lowest k ∧ n = m.delivered x k

theorem delivers_of_ready {n : Machine} (h : m.ready? = some n) : m.Delivers n := by
  rcases (ready?_cases h).2 with hrunning | ⟨x, k, hw, hk, hn⟩
  · exact .inl hrunning
  · exact .inr ⟨x, k, hw, Keypad.firstHeld?_eq_some_iff.mp hk, hn⟩

theorem step_held (m : Machine) : m.step.2.keypad.held = m.keypad.held := by
  rcases m.step_cases with ⟨d, hd, hs⟩ | ⟨_, hs⟩
  · rw [hs, cycle_keypad, nextKeypad_held]
    obtain ⟨_, rfl⟩ | ⟨x, k, _, _, rfl⟩ := (ready?_cases hd).2
    · rfl
    · rfl
  · rw [hs]

/-- Steps and ticks do not press or release a key. -/
theorem held_after (hops : ∀ op ∈ ops, op = .step ∨ op = .tick) :
    (m.after ops).keypad.held = m.keypad.held := by
  induction ops generalizing m with
  | nil => rfl
  | cons op ops ih =>
    have htail : ∀ o ∈ ops, o = .step ∨ o = .tick := fun o ho => hops o (by simp [ho])
    rcases hops op (by simp) with rfl | rfl
    · exact (ih htail).trans m.step_held
    · exact ih htail

/-- A machine that has its key does with the next step what it would have done without waiting. -/
theorem step_of_lowest (hf : m.fault = none) (hw : m.keypad.waiting = some r)
    (hk : m.keypad.Lowest k) :
    m.step = (m.delivered r k).step ∧ m.step = (true, (m.delivered r k).cycle) := by
  have hs := step_of_ready (ready?_of_lowest hf hw hk)
  have hd : (m.delivered r k).ready? = some (m.delivered r k) := ready?_of_running hf rfl
  exact ⟨hs.trans (step_of_ready hd).symm, hs⟩

theorem register_delivered (m : Machine) (r : Fin 16) (k : Key) :
    (m.delivered r k).register r = UInt8.ofNat k := by
  simp [delivered, register, setRegister, setKeypad]

theorem perform_polling (hf : m.fault = none) (hw : m.keypad.waiting = some r)
    (hop : op.isPolling = true) (hs : op = .step → ∀ k, m.keypad.isHeld k = false) :
    ∃ held, (m.perform op).2 = m.polled held ([op].count .tick) := by
  cases op with
  | step =>
    have hm : m.step.2 = m := by rw [step_of_not_ready (ready?_of_no_key hf hw (hs rfl))]
    exact ⟨m.keypad.held, hm⟩
  | tick => exact ⟨m.keypad.held, rfl⟩
  | setKey index down => exact m.setKey_eq index down
  | setNamedKey layout name down => exact m.setNamedKey_eq layout name down
  | releaseAll => exact ⟨_, rfl⟩
  | _ => cases hop

theorem exists_after_eq_polled (hf : m.fault = none) (hw : m.keypad.waiting = some r)
    (hops : ∀ op ∈ ops, op.isPolling = true) (hv : m.PollsInVain ops) :
    ∃ held, m.after ops = m.polled held (ops.count .tick) := by
  induction ops generalizing m with
  | nil => exact ⟨m.keypad.held, rfl⟩
  | cons op ops ih =>
    obtain ⟨hs, hv⟩ := hv
    obtain ⟨held, hop⟩ := perform_polling hf hw (hops op (by simp)) hs
    rw [hop] at hv
    -- A polled machine waits as before, so the rest of the polls applies to it.
    obtain ⟨later, hlater⟩ := ih (m := m.polled held _) hf hw (fun o ho => hops o (by simp [ho])) hv
    refine ⟨later, ?_⟩
    rw [after_cons, hop, hlater, polled_polled, ← List.count_append]
    rfl

theorem after_eq_polled (hf : m.fault = none) (hw : m.keypad.waiting = some r)
    (hops : ∀ op ∈ ops, op.isPolling = true) (hv : m.PollsInVain ops) :
    m.after ops = m.polled (m.after ops).keypad.held (ops.count .tick) := by
  obtain ⟨held, h⟩ := exists_after_eq_polled hf hw hops hv
  rw [h]
  rfl

theorem waiting_after (hf : m.fault = none) (hw : m.keypad.waiting = some r)
    (hops : ∀ op ∈ ops, op.isPolling = true) (hv : m.PollsInVain ops) :
    (m.after ops).fault = none ∧ (m.after ops).keypad.waiting = some r := by
  rw [after_eq_polled hf hw hops hv]
  exact ⟨hf, hw⟩

/-- What is delivered is the lowest of the keys that are held by then. -/
theorem ready?_register (hf : m.fault = none) (hw : m.keypad.waiting = some r) :
    (m.ready?.map fun d => d.register r) =
      m.keypad.heldKeys.head?.map fun (k : Key) => UInt8.ofNat k := by
  rw [ready?_of_waiting hf hw, Keypad.firstHeld?_eq_head?, Option.map_map]
  congr 1
  funext k
  exact m.register_delivered r k

/-- A machine that waits for a key stays as it is as long as none is held. With a key held, a step
puts the lowest one into the register and executes the next instruction, which finds it there. Steps
without a key, ticks, presses and releases may come before in any order: what is delivered depends
only on the keys held in the end. -/
theorem wait_ends_with_lowest_key (m : Machine) (r : Fin 16) (hf : m.fault = none)
    (hw : m.keypad.waiting = some r) :
    ((∀ k, m.keypad.isHeld k = false) → m.step = (false, m)) ∧
    (∀ j, m.keypad.isHeld j = true → ∃ k, m.keypad.Lowest k ∧
      m.step = (m.delivered r k).step ∧ m.step = (true, (m.delivered r k).cycle) ∧
      (m.delivered r k).register r = UInt8.ofNat k ∧ m.step.2.steps = m.steps + 1 ∧
      m.step.2.keypad.held = m.keypad.held) ∧
    ∀ ops, (∀ op ∈ ops, op.isPolling = true) → m.PollsInVain ops →
      m.after ops = m.polled (m.after ops).keypad.held (ops.count .tick) ∧
      (∀ k, (m.after ops).keypad.Lowest k →
        (m.after ops).step = (true, ((m.after ops).delivered r k).cycle)) ∧
      ∀ more, (∀ op ∈ more, op.isPolling = true) → m.PollsInVain more →
        (m.after more).keypad.heldKeys = (m.after ops).keypad.heldKeys →
        ((m.after more).ready?.map fun d => d.register r) =
          (m.after ops).ready?.map fun d => d.register r := by
  refine ⟨fun hk => step_of_not_ready (ready?_of_no_key hf hw hk), fun j hj => ?_, ?_⟩
  · obtain ⟨k, hk⟩ := Keypad.exists_lowest hj
    obtain ⟨hsame, hstep⟩ := step_of_lowest hf hw hk
    refine ⟨k, hk, hsame, hstep, m.register_delivered r k, ?_, m.step_held⟩
    rw [step_steps, hstep]
    rfl
  · intro ops hops hv
    obtain ⟨hfo, hwo⟩ := waiting_after hf hw hops hv
    refine ⟨after_eq_polled hf hw hops hv, fun k hk => (step_of_lowest hfo hwo hk).2, ?_⟩
    intro more hmore hvm hheld
    obtain ⟨hfm, hwm⟩ := waiting_after hf hw hmore hvm
    rw [ready?_register hfo hwo, ready?_register hfm hwm, hheld]

/-- A program that waits for a key in the second register and adds two to it. -/
def awaitKey : List Operation :=
  [.poke 0x200 0xF1, .poke 0x201 0x0A, .poke 0x202 0x71, .poke 0x203 0x02, .step]

/-- Key B comes and goes unseen, before keys A and 5 are pressed one after the other. -/
def latePresses : List Operation :=
  [.step, .setKey 0xB true, .tick, .setKey 0xB false, .step, .setKey 0xA true, .setKey 5 true]

set_option maxRecDepth 100000 in
/-- The host that presses them at once has the same key delivered. -/
theorem late_presses_deliver_five :
    let m := (initial {} (.listed [0] 0)).after awaitKey
    let presses : List Operation := [.setKey 5 true, .setKey 0xA true]
    (m.fault = none ∧ m.keypad.waiting = some 1) ∧ m.step = (false, m) ∧
      (m.PollsInVain latePresses ∧ (m.after latePresses).keypad.Lowest 5) ∧
      m.after latePresses = m.polled (m.after latePresses).keypad.held 1 ∧
      (m.after latePresses).step = (true, ((m.after latePresses).delivered 1 5).cycle) ∧
      (m.after latePresses).step.2.register 1 = 7 ∧
      (m.after latePresses).step.2.steps = (m.after latePresses).steps + 1 ∧
      ((m.after presses).ready?.map fun d => d.register 1) =
        (m.after latePresses).ready?.map fun d => d.register 1 := by
  intro m presses
  have hf : m.fault = none := by decide +kernel
  have hw : m.keypad.waiting = some 1 := by decide +kernel
  have hnone : ∀ k, m.keypad.isHeld k = false := by decide +kernel
  have hvain : m.PollsInVain latePresses := by decide +kernel
  have hlowest : (m.after latePresses).keypad.Lowest 5 := by decide +kernel
  obtain ⟨hidle, -, hall⟩ := wait_ends_with_lowest_key m 1 hf hw
  obtain ⟨hpolled, hstep, hsame⟩ := hall latePresses (by decide) hvain
  obtain ⟨hfault, hwaiting⟩ := waiting_after (r := 1) hf hw (by decide) hvain
  obtain ⟨-, hdeliver, -⟩ := wait_ends_with_lowest_key (m.after latePresses) 1 hfault hwaiting
  obtain ⟨-, -, -, -, -, hcount, -⟩ := hdeliver 5 hlowest.1
  exact ⟨⟨hf, hw⟩, hidle hnone, ⟨hvain, hlowest⟩, hpolled, hstep 5 hlowest, by decide +kernel,
    hcount, hsame presses (by decide) (by decide +kernel) (by decide +kernel)⟩

end Machine

end Chip8
