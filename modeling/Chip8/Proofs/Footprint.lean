import Chip8.Proofs.Countdown
import Chip8.Proofs.Randomness
import Chip8.Proofs.Transfers

/-! What an instruction can change. All other parts of the machine stay as they are. -/
namespace Chip8

/-- What instructions work on, apart from `pc`. -/
inductive Part
  | register (q : Fin 16)
  | index
  | byte (a : Nat)
  | calls
  | screen
  | timer (t : Timer)
  | waiting
  | source
deriving DecidableEq

def Part.Same : Part → Machine → Machine → Prop
  | register q, m, n => n.register q = m.register q
  | index, m, n => n.i = m.i
  | byte a, m, n => n.memory.read a = m.memory.read a
  | calls, m, n => n.stack = m.stack
  | screen, m, n => n.display = m.display
  | timer t, m, n => t.of n.timers = t.of m.timers
  | waiting, m, n => n.keypad.waiting = m.keypad.waiting
  | source, m, n => n.source = m.source

def AluOp.flags : AluOp → Bool
  | copy | or | and | xor => false
  | add | sub | shiftRight | subFrom | shiftLeft => true

theorem AluOp.flag?_isSome (op : AluOp) (b c : UInt8) : (op.flag? b c).isSome = op.flags := by
  cases op <;> rfl

/-- The parts that an instruction may change while the index register holds `a`. -/
def Instruction.footprint (a : UInt16) : Instruction → List Part
  | setByte x _ | addByte x _ | readDelay x => [.register x]
  | alu op x _ => .register x :: if op.flags then [.register 15] else []
  | restore x => ((List.finRange 16).filter (· ≤ x)).map .register
  | random x _ => [.register x, .source]
  | setIndex _ | addIndex _ | glyph _ => [.index]
  | decimal _ => (List.range 3).map fun k => .byte (wrapped a k)
  | save x => (List.range (x + 1)).map fun k => .byte (wrapped a k)
  | call _ | ret => [.calls]
  | clear => [.screen]
  | draw _ _ _ => [.register 15, .screen]
  | setDelay _ => [.timer .delay]
  | setSound _ => [.timer .sound]
  | waitKey _ => [.waiting]
  | jump _ | jumpOffset _ | skip _ => []

namespace Machine

variable {m n r : Machine} {p : Part} {i : Instruction} {q : Fin 16} {a : UInt16}

/-! One part after the other. -/

theorem alu_register {op : AluOp} {x y : Fin 16}
    (h : .register q ∉ (Instruction.alu op x y).footprint a) :
    (m.alu op x y).register q = m.register q := by
  have hx : q ≠ x := by
    rintro rfl
    exact h List.mem_cons_self
  have hresult : (m.setRegister x (op.result (m.register x) (m.register y))).register q =
      m.register q := (register_setRegister ..).trans (if_neg hx)
  have hflag := op.flag?_isSome (m.register x) (m.register y)
  simp only [alu]
  cases hf : op.flag? (m.register x) (m.register y) with
  | none => exact hresult
  | some b =>
    have hlast : q ≠ 15 := by
      rintro rfl
      rw [hf] at hflag
      exact h (by simp [Instruction.footprint, ← hflag])
    exact ((register_setRegister ..).trans (if_neg hlast)).trans hresult

theorem execute_register (h : .register q ∉ i.footprint m.i) (opcode address : UInt16) :
    (m.execute opcode address i).register q = m.register q := by
  cases i with
  | ret =>
    obtain ⟨_, _, _, hr⟩ := m.ret_eq opcode address
    rw [hr]
    rfl
  | call target =>
    obtain ⟨_, _, _, hc⟩ := m.call_eq opcode address target
    rw [hc]
    rfl
  | skip condition =>
    obtain ⟨_, hs⟩ := m.skip_eq condition
    simp only [execute, hs]
    rfl
  | alu op x y => exact alu_register h
  | setByte | addByte | readDelay | random | draw =>
    exact (register_setRegister ..).trans (if_neg (by simpa [Instruction.footprint] using h))
  | restore x =>
    exact (register_restore ..).trans (if_neg (by simpa [Instruction.footprint] using h))
  | _ => rfl

theorem execute_index (h : .index ∉ i.footprint m.i) (opcode address : UInt16) :
    (m.execute opcode address i).i = m.i := by
  have hbranch := m.execute_of_branches opcode address (i := i)
  cases i with
  | ret | call target | skip condition | alu op x y =>
    obtain ⟨_, _, _, _, he⟩ := hbranch rfl
    rw [he]
  | setIndex | addIndex | glyph => exact absurd List.mem_cons_self h
  | restore x => exact m.restore_index x
  | _ => rfl

theorem execute_byte {c : Nat} (h : .byte c ∉ i.footprint m.i) (opcode address : UInt16) :
    (m.execute opcode address i).memory.read c = m.memory.read c := by
  have hbranch := m.execute_of_branches opcode address (i := i)
  cases i with
  | ret | call target | skip condition | alu op x y =>
    obtain ⟨_, _, _, _, he⟩ := hbranch rfl
    rw [he]
  | decimal x =>
    apply (m.filled_decimal x).others
    intro k hc
    exact h (List.mem_map.mpr ⟨k, List.mem_range.mpr k.isLt, by rw [Int.ofNat_inj.mp hc]⟩)
  | save x =>
    apply (m.filled_save x).others
    intro k hc
    exact h (List.mem_map.mpr ⟨k, List.mem_range.mpr k.isLt, by rw [Int.ofNat_inj.mp hc]⟩)
  | restore x => exact congrArg (Memory.read · c) (m.restore_memory x)
  | _ => rfl

theorem execute_stack (h : .calls ∉ i.footprint a) (opcode address : UInt16) :
    (m.execute opcode address i).stack = m.stack := by
  cases i with
  | ret | call target => exact absurd List.mem_cons_self h
  | skip condition =>
    obtain ⟨_, hs⟩ := m.skip_eq condition
    simp only [execute, hs]
  | alu op x y =>
    obtain ⟨_, ha⟩ := m.alu_eq op x y
    simp only [execute, ha]
  | restore x => simp only [execute, restore]
  | _ => rfl

theorem execute_screen (h : .screen ∉ i.footprint a) (opcode address : UInt16) :
    (m.execute opcode address i).display = m.display := by
  have hclear : some i ≠ some .clear := by
    rintro ⟨⟩
    exact h List.mem_cons_self
  have hdraw : ∀ x y height, some i ≠ some (.draw x y height) := by
    rintro x y height ⟨⟩
    exact h (List.mem_cons_of_mem _ List.mem_cons_self)
  rw [execute_display]
  exact m.nextDisplay_of_other hclear hdraw

theorem execute_timer_of_notMem {t : Timer} (h : .timer t ∉ i.footprint a)
    (opcode address : UInt16) : t.of (m.execute opcode address i).timers = t.of m.timers := by
  have hother : t.register? i = none := by
    cases t with
    | delay =>
      cases i with
      | setDelay x => exact absurd List.mem_cons_self h
      | _ => rfl
    | sound =>
      cases i with
      | setSound x => exact absurd List.mem_cons_self h
      | _ => rfl
  rw [execute_timer, hother]
  rfl

theorem execute_waiting (h : .waiting ∉ i.footprint a) (opcode address : UInt16) :
    (m.execute opcode address i).keypad.waiting = m.keypad.waiting := by
  rw [execute_keypad]
  cases i with
  | waitKey x => exact absurd List.mem_cons_self h
  | _ => rfl

theorem execute_source_of_notMem (h : .source ∉ i.footprint a) (opcode address : UInt16) :
    (m.execute opcode address i).source = m.source := by
  apply execute_source
  cases i with
  | random x mask => exact absurd (List.mem_cons_of_mem _ List.mem_cons_self) h
  | _ => rfl

theorem same_execute (h : p ∉ i.footprint m.i) (opcode address : UInt16) :
    p.Same m (m.execute opcode address i) := by
  cases p with
  | register q => exact execute_register h opcode address
  | index => exact execute_index h opcode address
  | byte c => exact execute_byte h opcode address
  | calls => exact execute_stack h opcode address
  | screen => exact execute_screen h opcode address
  | timer t => exact execute_timer_of_notMem h opcode address
  | waiting => exact execute_waiting h opcode address
  | source => exact execute_source_of_notMem h opcode address

theorem same_cycle (h : ∀ i, Word.Spells m.fetch i → p ∉ i.footprint m.i) : p.Same m m.cycle := by
  cases hi : Instruction.decode m.fetch with
  | none =>
    rw [cycle_of_no_instruction hi]
    cases p <;> exact rfl
  | some i =>
    -- The instruction is executed with `pc` behind it already, which is none of the parts.
    have hsame := same_execute (m := m.setPc (m.pc + 2)) (h i (Instruction.spells_of_decode hi))
      m.fetch m.pc
    rw [cycle_of_instruction hi]
    cases p <;> exact hsame

/-- The parts make up the machine. -/
theorem eq_of_same (h : ∀ p : Part, p.Same m n) (hheld : n.keypad.held = m.keypad.held)
    (hconfig : n.config = m.config) :
    n = { m with pc := n.pc, faults := n.faults, steps := n.steps } := by
  have hv : n.v = m.v := by
    apply Vector.ext
    intro k hk
    exact h (.register ⟨k, hk⟩)
  have hmemory : n.memory = m.memory := by
    apply Memory.ext_read
    intro c
    by_cases hc : 0 ≤ c
    · obtain ⟨a, rfl⟩ := Int.eq_ofNat_of_zero_le hc
      exact h (.byte a)
    · rw [Memory.read_outside n.memory (by omega), Memory.read_outside m.memory (by omega)]
  have htimers : n.timers = m.timers :=
    congrArg₂ Timers.mk (h (.timer .delay)) (h (.timer .sound))
  have hkeypad : n.keypad = m.keypad := congrArg₂ Keypad.mk hheld (h .waiting)
  have hindex : n.i = m.i := h .index
  have hstack : n.stack = m.stack := h .calls
  have hdisplay : n.display = m.display := h .screen
  have hsource : n.source = m.source := h .source
  rw [← hv, ← hmemory, ← htimers, ← hkeypad, ← hindex, ← hstack, ← hdisplay, ← hsource, ← hconfig]

/-- A step delivers a key that is waited for, and then changes what its word lets it change and
nothing else. A word that is no instruction, and one that jumps or skips, lets it change none of
the parts. -/
theorem step_stays_in_footprint (m : Machine) :
    (m.ready? = none → m.step = (false, m)) ∧
      ∀ r, m.ready? = some r →
        let s := m.step.2
        m.Delivers r ∧
        (∀ p : Part, (∀ i, Word.Spells r.fetch i → p ∉ i.footprint r.i) → p.Same r s) ∧
        (s.keypad.held = m.keypad.held ∧ s.config = m.config) ∧
        ((∀ i, Word.Spells r.fetch i → i.footprint r.i = []) →
          s = { r with pc := s.pc, faults := s.faults, steps := s.steps }) := by
  refine ⟨step_of_not_ready, fun r hr => ?_⟩
  intro s
  have hs : s = r.cycle := by
    simp only [s, step_of_ready hr]
  have hsame : ∀ p : Part, (∀ i, Word.Spells r.fetch i → p ∉ i.footprint r.i) → p.Same r s := by
    intro p hp
    rw [hs]
    exact same_cycle hp
  have hheld : s.keypad.held = r.keypad.held := by
    rw [hs, cycle_keypad, nextKeypad_held]
  have hconfig : s.config = r.config := by
    rw [hs, cycle_config]
  have hready : r.keypad.held = m.keypad.held ∧ r.config = m.config := by
    rcases (ready?_cases hr).2 with ⟨_, rfl⟩ | ⟨_, _, _, _, rfl⟩
    · exact ⟨rfl, rfl⟩
    · exact ⟨rfl, rfl⟩
  refine ⟨delivers_of_ready hr, hsame, ⟨hheld.trans hready.1, hconfig.trans hready.2⟩, ?_⟩
  intro hnone
  apply eq_of_same _ hheld hconfig
  intro p
  apply hsame p
  intro i hi
  simp [hnone i hi]

/-- A program that waits for a key, with two keys held, and then saves four registers. -/
def savedKey : List Operation :=
  [.poke 0x200 0xF3, .poke 0x201 0x55, .setIndex 0x300, .setWaiting (some 3), .setKey 9 true,
    .setKey 5 true]

set_option maxRecDepth 100000 in
/-- The lower key goes to its register in the same step, and the fifth byte is left alone. -/
theorem saved_key_stays_in_four_bytes :
    let m := (initial {} (.listed [0] 0)).after savedKey
    let r := m.delivered 3 5
    m.ready? = some r ∧ Word.Spells r.fetch (.save 3) ∧
      m.step.2.register 3 = r.register 3 ∧ m.step.2.i = r.i ∧
      m.step.2.memory.read 0x304 = r.memory.read 0x304 ∧
      m.step.2.keypad.held = m.keypad.held := by
  intro m r
  have hm : m.fault = none ∧ m.keypad.waiting = some 3 ∧ m.keypad.Lowest 5 := by decide +kernel
  have hr : Instruction.decode r.fetch = some (.save 3) ∧ r.i = 0x300 := by decide +kernel
  obtain ⟨hf, hw, hlowest⟩ := hm
  obtain ⟨hsave, hindex⟩ := hr
  have hready := ready?_of_lowest hf hw hlowest
  obtain ⟨_, hsame, ⟨hheld, _⟩, _⟩ := (step_stays_in_footprint m).2 r hready
  have hother : ∀ p, p ∉ (Instruction.save 3).footprint 0x300 → p.Same r m.step.2 := by
    intro p hp
    apply hsame p
    intro i hi
    cases hsave.symm.trans (Instruction.decode_of_spells hi)
    rw [hindex]
    exact hp
  exact ⟨hready, Instruction.spells_of_decode hsave, hother (.register 3) (by decide),
    hother .index (by decide), hother (.byte 0x304) (by decide), hheld⟩

end Machine

end Chip8
