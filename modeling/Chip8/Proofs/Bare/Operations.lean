import Chip8.Proofs.Bare.Runs
import Chip8.Proofs.Batch

/-! The host's operations on bare numbers. -/
namespace Chip8.Bare

variable {m : Machine} {a : Nat} {bs : List UInt8}

theorem bare_writeBytes (s : Memory) (h : a + bs.length ≤ 4096) :
    (s.writeBytes a bs).bytes.toList.map (fun b => (b.toNat : Int)) =
      overlay (s.bytes.toList.map fun b => (b.toNat : Int)) a (bytesOf bs) := by
  rw [s.writeBytes_toList h]
  simp [overlay, bytesOf]

theorem bare_initial_memory :
    Memory.initial.bytes.toList.map (fun b => (b.toNat : Int)) = firstMemory := by
  have h := bare_writeBytes (a := 0) Memory.zeros (show 0 + font.length ≤ 4096 by decide)
  have hzeros : Memory.zeros.bytes.toList.map (fun b => (b.toNat : Int)) =
      List.replicate 4096 0 := by
    rw [Memory.zeros, Vector.toList_replicate, List.map_replicate]
    rfl
  rw [hzeros] at h
  exact h

theorem start_eq (config : Config) (source : Random.Source) :
    start config source = (Machine.initial config source).bare := by
  simp only [start, Machine.bare, Machine.initial, CallStack.empty, Display.blank, Display.dark,
    Keypad.released, Timers.stopped, Vector.toList_replicate, List.map_replicate,
    bare_initial_memory, Option.map_none]
  rfl

theorem does_resetCpu (m : Machine) : Does resetCpu m () m.resetCpu := by
  apply does_modify
  simp only [Machine.bare, Machine.resetCpu, CallStack.empty, Vector.toList_replicate,
    List.map_replicate]
  rfl

theorem does_resetMemory (m : Machine) :
    Does (modify fun s => { s with memory := firstMemory }) m () (m.setMemory .initial) := by
  apply does_modify
  simp only [Machine.bare, Machine.fault, Machine.setMemory, bare_initial_memory]

theorem does_reset (m : Machine) : Does reset m () m.reset := by
  have htimers : ∀ r : Machine, ({ r.bare with delay := 0, sound := 0 } : Bare) =
      (r.setTimers .stopped).bare := fun r => rfl
  apply does_bind (does_resetMemory m)
  apply does_bind (does_resetCpu _)
  apply does_bind (does_modify (htimers _))
  apply does_bind (does_releaseAll _)
  apply does_bind (does_setWaiting _ none)
  apply does_bind (does_clear _)
  apply does_modify
  simp only [Machine.bare, Machine.fault, Machine.reset, Machine.resetCpu, Machine.setMemory,
    Machine.setTimers, Machine.setKeypad, Machine.setDisplay, Keypad.releaseAll, Keypad.released]

/-- What the host hears of an answer. -/
def outcome : Except HostError Answer → Except Raised Unit
  | .ok _ => .ok ()
  | .error e => .error (.refused e)

theorem perform_load (m : Machine) (program : List UInt8) :
    perform (.load program) m.bare =
      (outcome (m.perform (.load program)).1.answer, (m.perform (.load program)).2.bare) := by
  have hmax : maxProgramSize = 3584 := rfl
  by_cases h : program.length ≤ maxProgramSize
  · have hl : m.load program = .ok (m.setMemory (m.memory.writeBytes programStart program)) := by
      rw [Machine.load, Memory.load, if_pos h]
      rfl
    have hb : ({ m.bare with memory := overlay m.bare.memory 0x200 (bytesOf program) } : Bare) =
        (m.setMemory (m.memory.writeBytes programStart program)).bare := by
      have hw := bare_writeBytes m.memory (show programStart + program.length ≤ 4096 by
        simp only [programStart]
        omega)
      simp only [Machine.bare, Machine.setMemory, hw]
      rfl
    simp only [perform, load, Machine.perform, hl]
    rw [if_neg (by omega)]
    exact does_modify hb
  · have hl : m.load program = .error (.programSize program.length maxProgramSize) := by
      rw [Machine.load, Memory.load, if_neg h]
      rfl
    simp only [perform, load, Machine.perform, hl]
    rw [if_pos (by omega)]
    rfl

theorem does_setKey (m : Machine) (k : Key) (down : Bool) :
    Does (setKey k.val down) m () (m.setKeypad (m.keypad.put k down)) := by
  rw [setKey, if_pos (by omega)]
  exact does_putKey m k down

/-- Outside the keypad, a strict machine refuses and a lenient one lets it pass. -/
theorem perform_setKey (m : Machine) (index : Int) (down : Bool) :
    perform (.setKey index down) m.bare =
      (outcome (m.perform (.setKey index down)).1.answer,
        (m.perform (.setKey index down)).2.bare) := by
  simp only [perform, Machine.perform, Machine.setKey, Keypad.setKey]
  by_cases h : 0 ≤ index ∧ index < 16
  · obtain ⟨k, rfl⟩ : ∃ k : Fin 16, index = k := exists_fin h
    have hk : Keypad.key? k = some k := dif_pos h
    rw [hk]
    exact does_setKey m k down
  · have hk : Keypad.key? index = none := dif_neg h
    rw [setKey, if_neg h, hk]
    change (if m.config.strict then raise (.refused (.keyIndex index)) else pure () : Act Unit)
      m.bare = _
    split
    · rfl
    · rfl

theorem perform_setNamedKey (m : Machine) (layout : KeyLayout) (name : String) (down : Bool) :
    perform (.setNamedKey layout name down) m.bare =
      (outcome (m.perform (.setNamedKey layout name down)).1.answer,
        (m.perform (.setNamedKey layout name down)).2.bare) := by
  simp only [perform, setNamedKey, Machine.perform, Machine.setNamedKey, Keypad.setNamed]
  cases layout.key name with
  | ok k => exact does_setKey m k down
  | error e => rfl

theorem perform_bare (m : Machine) (op : Operation) :
    perform op m.bare = (outcome (m.perform op).1.answer, (m.perform op).2.bare) := by
  cases op with
  | load program => exact perform_load m program
  | step => exact does_bind (does_step m) (does_pure _ _)
  | run n => exact does_bind (does_run m n) (does_pure _ _)
  | runFrame n => exact does_bind (does_runFrame m n) (does_pure _ _)
  | runPaced maxSteps pace =>
    exact does_bind (does_paceFrom pace maxSteps maxSteps.toNat (by simp)) (does_pure _ _)
  | tick => exact does_tick m
  | reset => exact does_reset m
  | resetCpu => exact does_resetCpu m
  | setKey index down => exact perform_setKey m index down
  | setNamedKey layout name down => exact perform_setNamedKey m layout name down
  | releaseAll => exact does_releaseAll m
  | poke address value => exact does_write m address rfl
  | setPc value => exact does_setPc m rfl
  | setIndex value => exact does_setIndex m rfl
  | setRegister r value => exact does_putRegister m r rfl
  | setDelay value => exact does_modify rfl
  | setSound value => exact does_modify rfl
  | setWaiting r => exact does_setWaiting m r
  | setChanged b => exact does_modify rfl
  | consumeChanged => exact does_modify rfl

theorem after_bare (m : Machine) (ops : List Operation) :
    m.bare.after ops = (m.after ops).bare := by
  induction ops generalizing m with
  | nil => rfl
  | cons op ops ih =>
    rw [after, perform_bare]
    exact ih _

end Chip8.Bare
