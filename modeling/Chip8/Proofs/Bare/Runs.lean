import Chip8.Proofs.Bare.Instructions
import Chip8.Proofs.Execution

/-! Steps and runs on bare numbers. -/
namespace Chip8.Bare

variable {m r : Machine}

theorem toNat_fetch (m : Machine) :
    (256 * (m.memory.read m.pc.toNat).toNat : Int).lor (m.memory.read (m.pc + 1).toNat).toNat =
      m.fetch.toNat := by
  have hhigh := (m.memory.read m.pc.toNat).toNat_lt
  have hlow := (m.memory.read (m.pc + 1).toNat).toNat_lt
  have hlor := Nat.two_pow_add_eq_or_of_lt hlow (m.memory.read m.pc.toNat).toNat
  have hcast : (256 * (m.memory.read m.pc.toNat).toNat : Int) =
      (2 ^ 8 * (m.memory.read m.pc.toNat).toNat : Nat) := by simp
  rw [hcast]
  change ((2 ^ 8 * _ ||| _ : Nat) : Int) = _
  rw [← hlor, Machine.fetch, UInt16.toNat_ofNat_of_lt' (by simp only [UInt16.size]; omega)]

theorem does_cycle (hm : m.fault = none) :
    Does cycle m () ((m.setPc (m.pc + 2)).executeWord m.fetch m.pc) := by
  have hnext : (m.bare.pc + 1) % 65536 = ((m.pc + 1).toNat : Int) := toNat_offset m.pc 1
  apply does_bind (does_get m)
  apply does_bind (does_read m _)
  simp only [hnext]
  apply does_bind (does_read m _)
  apply does_bind (does_setPc m (address_add m.pc 2))
  have hword : Int.lor (256 * (m.memory.read m.bare.pc).toNat)
      (m.memory.read (m.pc + 1).toNat).toNat = m.fetch.toNat := toNat_fetch m
  simp only [hword]
  exact does_executeWord (m := m.setPc (m.pc + 2)) hm m.fetch m.pc

theorem does_ready (m : Machine) : Does ready m m.ready?.isSome (m.ready?.getD m) := by
  unfold Machine.ready? Machine.resume? Machine.halted
  apply does_bind (does_get m)
  have hheld : m.bare.held.findIdx? id = m.keypad.firstHeld?.map Fin.val := findIdx?_held m.keypad
  have hfault : m.bare.fault.isSome = m.fault.isSome := by simp [Machine.bare]
  have hwaiting : m.bare.waiting = m.keypad.waiting.map fun r => (r.val : Int) := rfl
  simp only [hheld, hfault, hwaiting]
  cases m.fault with
  | some f => exact does_pure false m
  | none =>
    cases m.keypad.waiting with
    | none => exact does_pure true m
    | some r =>
      cases m.keypad.firstHeld? with
      | none => exact does_pure false m
      | some k =>
        have hkey : UInt8.ofInt k.val = UInt8.ofNat k := by
          apply byte_eq
          rw [UInt8.toNat_ofNat_of_lt' (by simp only [UInt8.size]; omega)]
        apply does_bind (does_setRegister m r hkey)
        apply does_bind (does_setWaiting _ none)
        exact does_pure true _

theorem does_step (m : Machine) : Does step m m.step.1 m.step.2 := by
  unfold step
  apply does_bind (does_ready m)
  rcases m.step_cases with ⟨r, hr, hs⟩ | ⟨hr, hs⟩
  · have hc := does_cycle (Machine.ready?_fault hr)
    rw [hr, hs]
    apply does_bind hc
    exact does_bind (does_modify rfl) (does_pure true _)
  · rw [hr, hs]
    exact does_pure false m

theorem does_runFrom (m : Machine) (n done : Nat) :
    Does (runFrom done n) m (m.runFrom done n).1 (m.runFrom done n).2 := by
  induction n generalizing m done with
  | zero => exact does_pure done m
  | succ n ih =>
    apply does_bind (does_step m)
    simp only [Machine.runFrom]
    rcases m.step_cases with ⟨r, hr, hs⟩ | ⟨hr, hs⟩
    · rw [hs]
      exact ih r.cycle (done + 1)
    · rw [hs]
      exact does_pure done m

theorem does_run (m : Machine) (n : Int) : Does (run n) m (m.run n).1 (m.run n).2 :=
  does_runFrom m n.toNat 0

theorem toNat_countDown (b : UInt8) : countDown b.toNat = ((Chip8.countDown b).toNat : Int) := by
  have hpos : (0 : Int) < b.toNat ↔ 0 < b := by
    rw [UInt8.lt_iff_toNat_lt]
    exact Int.natCast_pos
  unfold countDown Chip8.countDown
  simp only [hpos]
  split
  · rename_i hb
    have hle : (1 : UInt8) ≤ b := by
      rw [UInt8.le_iff_toNat_le]
      rw [UInt8.lt_iff_toNat_lt] at hb
      exact hb
    rw [UInt8.toNat_sub_of_le _ _ hle]
    exact (Int.ofNat_sub hle).symm
  · rfl

theorem does_tick (m : Machine) : Does tick m () m.tick := by
  apply does_modify
  simp only [Machine.bare, toNat_countDown]
  rfl

theorem does_runFrame (m : Machine) (n : Int) :
    Does (runFrame n) m (m.runFrame n).1 (m.runFrame n).2 := by
  apply does_bind (does_run m n)
  apply does_bind (does_tick _)
  exact does_pure _ _

theorem bare_blocked (m : Machine) :
    (m.bare.waiting.isSome && !m.bare.held.any id) = m.blocked := by
  have hheld : m.bare.held.any id = m.keypad.firstHeld?.isSome := by
    have := findIdx?_held m.keypad
    rw [← List.findIdx?_isSome, Machine.bare, this, Option.isSome_map]
  rw [hheld, Machine.blocked, Machine.bare, Option.isSome_map, Option.not_isSome]

/-- What is left of the budget goes down with every frame that executes something. -/
theorem does_paceFrom (pace maxSteps : Int) (left : Nat) {m : Machine} {steps frames : Nat}
    (h : (maxSteps - steps).toNat = left) :
    Does (paceFrom pace maxSteps steps frames) m
      ((m.paceFrom pace steps frames left).1.steps, (m.paceFrom pace steps frames left).1.frames)
      (m.paceFrom pace steps frames left).2 := by
  induction left using Nat.strongRecOn generalizing m steps frames with
  | ind left ih =>
    rw [paceFrom, Machine.paceFrom]
    by_cases hleft : left = 0
    · rw [dif_neg (by omega), if_pos hleft]
      exact does_pure _ m
    · have hbudget : maxSteps - steps = left := by omega
      have hf := does_runFrame m (min pace left)
      have hblocked := bare_blocked (m.runFrame (min pace left)).2
      have hfault : (m.runFrame (min pace left)).2.bare.fault.isSome =
          (m.runFrame (min pace left)).2.halted := by simp [Machine.bare, Machine.halted]
      rw [dif_pos (by omega), if_neg hleft, hbudget]
      apply does_bind hf
      apply does_bind (does_get _)
      simp only [hblocked, hfault]
      split
      · exact does_pure _ _
      · split
        · exact does_pure _ _
        · split
          · exact does_pure _ _
          · exact ih _ (by omega) (by omega)

end Chip8.Bare
