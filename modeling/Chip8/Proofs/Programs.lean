import Chip8.Proofs.Halting
import Chip8.Proofs.Writes

/-! Programs as words. A loaded program is executed word by word as it was given, until something
else is put into its place, and from then on as it is there. -/
namespace Chip8

namespace Word

variable {ws : List UInt16} {w : UInt16} {k : Nat}

/-- The two bytes of a word, the high one first. -/
def pair (w : UInt16) : List UInt8 := [UInt8.ofNat (w.toNat / 256), byte w]

def spelled (ws : List UInt16) : List UInt8 := ws.flatMap pair

theorem toNat_pair (w : UInt16) :
    256 * (UInt8.ofNat (w.toNat / 256)).toNat + (byte w).toNat = w.toNat := by
  have hw := w.toNat_lt
  rw [byte, UInt8.toNat_ofNat', UInt8.toNat_ofNat']
  omega

theorem length_spelled (ws : List UInt16) : (spelled ws).length = 2 * ws.length := by
  induction ws with
  | nil => rfl
  | cons w ws ih =>
    rw [spelled, List.flatMap_cons, List.length_append, ← spelled, ih, List.length_cons]
    simp only [pair, List.length_cons, List.length_nil]
    omega

theorem spelled_getElem? (h : ws[k]? = some w) :
    (spelled ws)[2 * k]? = some (UInt8.ofNat (w.toNat / 256)) ∧
      (spelled ws)[2 * k + 1]? = some (byte w) := by
  induction ws generalizing k with
  | nil => cases h
  | cons v ws ih =>
    cases k with
    | zero =>
      cases h
      exact ⟨rfl, rfl⟩
    | succ k => exact ih h

end Word

namespace Machine

variable {m n r : Machine} {ops : List Operation} {ws : List UInt16} {w : UInt16} {k : Nat}

theorem fetch_of_bytes {high low : UInt8} (hhigh : m.memory.read m.pc.toNat = high)
    (hlow : m.memory.read ((m.pc.toNat + 1) % 65536 : Nat) = low)
    (h : 256 * high.toNat + low.toNat = w.toNat) : m.fetch = w := by
  apply UInt16.toNat_inj.mp
  rw [toNat_fetch, hhigh, hlow, h]

theorem perform_spelled (h : ws.length ≤ 1792) (m : Machine) :
    m.perform (.load (Word.spelled ws)) = (⟨.ok .nothing, [.loaded (2 * ws.length)]⟩,
      m.setMemory (m.memory.writeBytes 0x200 (Word.spelled ws))) := by
  have hlength := Word.length_spelled ws
  rw [perform_load, if_pos (by omega), hlength]

/-- A byte of a loaded program stays where it is until something else is put there. -/
theorem read_loaded {program : List UInt8} {b : UInt8} {j : Nat} (hfit : program.length ≤ 3584)
    (hb : program[j]? = some b) (hn : n = m.setMemory (m.memory.writeBytes 0x200 program))
    (h : ∀ e ∈ n.history ops, e.touches (0x200 + j) = false) :
    (n.after ops).memory.read ((0x200 + j : Nat) : Int) = b := by
  have hj : j < program.length := (List.getElem?_eq_some_iff.mp hb).1
  have hoff : (((0x200 + j : Nat) : Int) - 0x200).toNat = j := by omega
  rw [read_after_of_untouched h, hn]
  change (m.memory.writeBytes 0x200 program).read ((0x200 + j : Nat) : Int) = b
  rw [Memory.read_writeBytes (by omega), if_pos (by omega), hoff, hb, Option.getD_some]

theorem fetch_of_loaded (hfit : ws.length ≤ 1792) (hw : ws[k]? = some w)
    (hn : n = m.setMemory (m.memory.writeBytes 0x200 (Word.spelled ws)))
    (hpc : (n.after ops).pc.toNat = 0x200 + 2 * k)
    (h : ∀ e ∈ n.history ops,
      e.touches (0x200 + 2 * k) = false ∧ e.touches (0x200 + 2 * k + 1) = false) :
    (n.after ops).fetch = w := by
  obtain ⟨hhigh, hlow⟩ := Word.spelled_getElem? hw
  have hk : k < ws.length := (List.getElem?_eq_some_iff.mp hw).1
  have hnext : (0x200 + 2 * k + 1) % 65536 = 0x200 + 2 * k + 1 := Nat.mod_eq_of_lt (by omega)
  have hbytes : (Word.spelled ws).length ≤ 3584 := by
    rw [Word.length_spelled]
    omega
  apply fetch_of_bytes _ _ (Word.toNat_pair w)
  · rw [hpc]
    exact read_loaded hbytes hhigh hn fun e he => (h e he).1
  · rw [hpc, hnext]
    exact read_loaded hbytes hlow hn fun e he => (h e he).2

theorem step_of_fetch (hr : m.ready? = some r) (hw : m.fetch = w) :
    r.fetch = w ∧ m.step = (true, ((r.setPc (r.pc + 2)).executeWord w r.pc).countStep) := by
  have hfetch : r.fetch = w := (ready?_fetch hr).trans hw
  subst hfetch
  exact ⟨rfl, step_of_ready hr⟩

theorem fetch_after (m : Machine) (ops : List Operation) : (m.after ops).fetch.toNat =
    256 * (m.newest ops (m.after ops).pc.toNat).toNat +
      (m.newest ops (((m.after ops).pc.toNat + 1) % 65536)).toNat := by
  rw [toNat_fetch, read_after, read_after]

/-- A program of as many words as there is room for is put into the store, and nothing else changes.
A step at the place of one of its words executes that word, now or after any run in which nothing was
put there. In every run a step executes what was last put at its two addresses, so no instruction
outlives its bytes. Programs of 3584 bytes or fewer are accepted, and larger ones are refused with
their size and that limit. -/
theorem loaded_words_are_executed :
    (∀ (m : Machine) (ws : List UInt16), ws.length ≤ 1792 →
      let n := (m.perform (.load (Word.spelled ws))).2
      (m.perform (.load (Word.spelled ws))).1 = ⟨.ok .nothing, [.loaded (2 * ws.length)]⟩ ∧
      (n = m.setMemory n.memory ∧ ∀ a : Int, ¬ (0x200 ≤ a ∧ a < 0x200 + 2 * ws.length) →
        n.memory.read a = m.memory.read a) ∧
      ∀ ops k w r, ws[k]? = some w → (n.after ops).pc.toNat = 0x200 + 2 * k →
        (∀ e ∈ n.history ops,
          e.touches (0x200 + 2 * k) = false ∧ e.touches (0x200 + 2 * k + 1) = false) →
        (n.after ops).ready? = some r →
        r.fetch = w ∧
          (n.after ops).step = (true, ((r.setPc (r.pc + 2)).executeWord w r.pc).countStep)) ∧
    (∀ (m : Machine) ops r, (m.after ops).ready? = some r →
      r.fetch.toNat = 256 * (m.newest ops (m.after ops).pc.toNat).toNat +
          (m.newest ops (((m.after ops).pc.toNat + 1) % 65536)).toNat ∧
        (m.after ops).step = (true, ((r.setPc (r.pc + 2)).executeWord r.fetch r.pc).countStep)) ∧
    ∀ (m : Machine) program, m.perform (.load program) =
      if program.length ≤ 3584 then
        (⟨.ok .nothing, [.loaded program.length]⟩,
          m.setMemory (m.memory.writeBytes 0x200 program))
      else (⟨.error (.programSize program.length 3584), []⟩, m) := by
  refine ⟨fun m ws hfit => ?_, fun m ops r hr => ?_, perform_load⟩
  · intro n
    have hload := perform_spelled hfit m
    have hn : n = m.setMemory (m.memory.writeBytes 0x200 (Word.spelled ws)) :=
      congrArg Prod.snd hload
    refine ⟨congrArg Prod.fst hload, ⟨?_, fun a ha => ?_⟩, fun ops k w r hw hpc h hr => ?_⟩
    · rw [hn]
      rfl
    · rw [hn]
      have hlength := Word.length_spelled ws
      exact Memory.read_writeBytes_outside (by omega) m.memory
    · exact step_of_fetch hr (fetch_of_loaded hfit hw hn hpc h)
  · rw [ready?_fetch hr, fetch_after]
    exact ⟨rfl, (step_of_fetch hr rfl).2⟩

/-- The longest program there is room for. Its last word, a jump to the first one, has the last two
bytes of the store. -/
def jumpAtTheEnd : List UInt16 := List.replicate 1791 0x6005 ++ [0x1200]

/-- The third word puts 12 over the first half of the fourth, a wait for a key. -/
def overwrittenWord : List UInt16 := [0x6012, 0xA206, 0xF055, 0xF50A]

set_option maxRecDepth 100000 in
/-- The last word there is room for is executed. So is the jump that the wait has become. -/
theorem last_and_overwritten_words_are_executed :
    let start := initial {} (.listed [0] 0)
    let n := (start.perform (.load (Word.spelled jumpAtTheEnd))).2
    let m := n.after [.setPc 0xFFE]
    let ops := [.load (Word.spelled overwrittenWord), .run 3]
    let s := start.after ops
    (jumpAtTheEnd.length = 1792 ∧ jumpAtTheEnd[1791]? = some 0x1200 ∧
      n.memory.read 0x1FF = start.memory.read 0x1FF ∧
      m.pc.toNat = 0x200 + 2 * 1791 ∧ m.ready? = some m ∧ m.fetch = 0x1200 ∧
      m.step = (true, ((m.setPc (m.pc + 2)).executeWord 0x1200 m.pc).countStep)) ∧
      (s.ready? = some s ∧ start.newest ops 0x206 = 0x12 ∧ start.newest ops 0x207 = 0x0A ∧
        s.fetch.toNat = 0x120A) ∧
      start.perform (.load (List.replicate 3585 0)) =
        (⟨.error (.programSize 3585 3584), []⟩, start) := by
  intro start n m ops s
  obtain ⟨hload, hnewest, hsize⟩ := loaded_words_are_executed
  have hlength : jumpAtTheEnd.length = 1792 := by decide +kernel
  have hlast : jumpAtTheEnd[1791]? = some 0x1200 := by decide +kernel
  obtain ⟨-, ⟨(hn : n = start.setMemory n.memory), hbelow⟩, hwords⟩ :=
    hload start jumpAtTheEnd (by omega)
  have hset : ∀ n : Machine, (n.after [.setPc 0xFFE]).pc.toNat = 0x200 + 2 * 1791 ∧
      (n.after [.setPc 0xFFE]).fault = n.fault ∧ (n.after [.setPc 0xFFE]).keypad = n.keypad ∧
      n.history [.setPc 0xFFE] = [.host (.setPc 0xFFE)] := fun _ => ⟨rfl, rfl, rfl, rfl⟩
  obtain ⟨hpc, hfault, hkeypad, hhistory⟩ := hset n
  have hrunning : n.fault = none ∧ n.keypad.waiting = none := by
    rw [hn]
    exact ⟨rfl, rfl⟩
  have hready := ready?_of_running (hfault.trans hrunning.1)
    ((congrArg Keypad.waiting hkeypad).trans hrunning.2)
  have huntouched : ∀ e ∈ n.history [.setPc 0xFFE],
      e.touches (0x200 + 2 * 1791) = false ∧ e.touches (0x200 + 2 * 1791 + 1) = false := by
    rw [hhistory]
    rintro e (_ | ⟨_, ⟨⟩⟩)
    exact ⟨rfl, rfl⟩
  obtain ⟨hfetch, hstep⟩ := hwords [.setPc 0xFFE] 1791 0x1200 m hlast hpc huntouched hready
  have hs : (s.fault = none ∧ s.keypad.waiting = none) ∧ s.pc.toNat = 0x206 ∧
      start.newest ops 0x206 = 0x12 ∧ start.newest ops 0x207 = 0x0A := by decide +kernel
  obtain ⟨hrunning', hpc', hhigh, hlow⟩ := hs
  have hready' := ready?_of_running hrunning'.1 hrunning'.2
  have hfetch' := (hnewest start ops s hready').1
  rw [hpc', hhigh, hlow] at hfetch'
  have hrefused := hsize start (List.replicate 3585 0)
  rw [List.length_replicate, if_neg (by decide)] at hrefused
  exact ⟨⟨hlength, hlast, hbelow 0x1FF (by omega), hpc, hready, hfetch, hstep⟩,
    ⟨hready', hhigh, hlow, hfetch'⟩, hrefused⟩

end Machine

end Chip8
