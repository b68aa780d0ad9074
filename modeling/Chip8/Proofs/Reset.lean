import Chip8.Proofs.Commuting

/-! A reset machine beside one just switched on. All that can tell them apart is a display flag
that was up before the reset. -/
namespace Chip8

namespace Display

/-- The flag goes up if `b` says so. -/
def raise (d : Display) (b : Bool) : Display := d.setChanged (d.changed || b)

theorem raise_false (d : Display) : d.raise false = d := by
  rw [raise, Bool.or_false]
  rfl

theorem clear_raise (d : Display) (b : Bool) : (d.raise b).clear = d.clear.raise b :=
  congrArg (Display.mk dark) (Bool.or_right_comm d.changed b _)

theorem draw_raise (d : Display) (b : Bool) (source : SpriteSource) (x y address height : Int) :
    (d.raise b).draw source x y address height =
      { d.draw source x y address height with
        display := (d.draw source x y address height).display.raise b } := by
  have hflag := Bool.or_right_comm d.changed b
  simp only [draw, raise, setChanged, hflag]

theorem any_pixel_iff (d : Display) : d.pixels.any id = true ↔ ∃ x y, d.lit x y = true := by
  rw [Vector.any_eq_true]
  constructor
  · rintro ⟨k, hk, hlit⟩
    refine ⟨⟨k % 64, by omega⟩, ⟨k / 64, by omega⟩, ?_⟩
    have hcell : k % 64 + 64 * (k / 64) = k := Nat.mod_add_div k 64
    exact (congrArg d.pixels.get (Fin.ext hcell)).trans hlit
  · rintro ⟨x, y, hlit⟩
    exact ⟨x + 64 * y, by omega, hlit⟩

theorem clear_changed (d : Display) : d.clear.changed = true ↔
    d.changed = true ∨ ∃ x y, d.lit x y = true := by
  rw [clear, Bool.or_eq_true, any_pixel_iff]

end Display

/-- The host sets the flag itself, or takes it down. -/
def Operation.setsFlag : Operation → Bool
  | .setChanged _ | .consumeChanged => true
  | _ => false

namespace Machine

variable {m : Machine} {b : Bool} {op : Operation}

/-- What a machine just switched on looks like. -/
structure PowerOn (m : Machine) : Prop where
  registers : ∀ r, m.register r = 0
  index : m.i = 0
  start : m.pc = 0x200
  stack : m.stack.live = []
  fault : m.fault = none
  memory : ∀ a : Nat, m.memory.read a = font.getD a 0
  screen : ∀ x y, m.display.lit x y = false
  keys : ∀ k, m.keypad.isHeld k = false
  waiting : m.keypad.waiting = none
  delay : m.timers.delay = 0
  sound : m.timers.sound = 0
  steps : m.steps = 0

def raised (m : Machine) (b : Bool) : Machine := m.setDisplay (m.display.raise b)

/-- All but the flag. -/
def lowered (m : Machine) : Machine := m.setDisplay (m.display.setChanged false)

theorem raised_false (m : Machine) : m.raised false = m := by
  rw [raised, Display.raise_false]
  rfl

theorem lowered_raised (m : Machine) (b : Bool) : (m.raised b).lowered = m.lowered := rfl

theorem reset_eq (m : Machine) :
    m.reset = (initial m.config m.source).raised m.display.clear.changed := by
  simp only [reset, resetCpu, initial, raised, setDisplay, Display.raise, Display.setChanged,
    Display.blank, Display.clear, Bool.false_or]

theorem initial_powerOn (config : Config) (source : Random.Source) :
    (initial config source).PowerOn where
  registers r := by simp [register, initial]
  index := rfl
  start := rfl
  stack := rfl
  fault := rfl
  memory a := Memory.read_initial a
  screen x y := by simp [initial, Display.blank, Display.dark, Display.lit, Vector.get]
  keys k := by simp [initial, Keypad.released, Keypad.isHeld]
  waiting := rfl
  delay := rfl
  sound := rfl
  steps := rfl

theorem PowerOn.raised (h : m.PowerOn) (b : Bool) : (m.raised b).PowerOn := { h with }

/-! The flag makes no difference to the program. -/

theorem onDevices_raised (b : Bool) : OnDevices fun m => m.raised b where
  v _ := rfl
  pc _ := rfl
  stack _ := rfl
  config _ := rfl
  fetch _ := rfl
  setRegister _ _ _ := rfl
  setPc _ _ := rfl
  setStack _ _ := rfl
  halt _ _ := rfl
  countStep _ := rfl

theorem draw_raised (m : Machine) (b : Bool) (x y height : Fin 16) :
    (m.raised b).draw x y height = (m.draw x y height).raised b := by
  have hdisplay : (m.raised b).display = m.display.raise b := rfl
  simp only [draw, hdisplay, Display.draw_raise]
  rfl

theorem execute_raised (m : Machine) (b : Bool) (opcode address : UInt16) (i : Instruction) :
    (m.raised b).execute opcode address i = (m.execute opcode address i).raised b := by
  have hbranch := (onDevices_raised b).execute m (i := i)
  have hholds : ∀ condition, i = .skip condition →
      (m.raised b).holds condition = m.holds condition := fun condition _ =>
    holds_map (φ := fun d => d.raised b) rfl rfl condition
  cases i with
  | clear => exact congrArg m.setDisplay (m.display.clear_raise b)
  | draw x y height => exact m.draw_raised b x y height
  | ret | call target | skip condition | alu op x y => exact hbranch rfl hholds opcode address
  | _ => rfl

theorem cycle_raised (m : Machine) (b : Bool) : (m.raised b).cycle = m.cycle.raised b :=
  (onDevices_raised b).cycle m fun i _ => execute_raised _ b m.fetch m.pc i

theorem ready?_raised (m : Machine) (b : Bool) :
    (m.raised b).ready? = m.ready?.map fun d => d.raised b :=
  ready?_map (φ := fun d => d.raised b) rfl rfl fun _ _ => rfl

theorem step_raised (m : Machine) (b : Bool) :
    (m.raised b).step = (m.step.1, m.step.2.raised b) :=
  step_map (φ := fun d => d.raised b) (m.ready?_raised b) fun d _ => d.cycle_raised b

theorem commutes_raised (b : Bool) : Commutes (fun m => m.raised b) fun _ => True where
  step m _ := m.step_raised b
  tick _ := rfl
  faults _ := rfl
  blocked _ := rfl
  before_step _ _ := trivial
  before_tick _ _ := trivial

theorem reset_raised (m : Machine) (b : Bool) : (m.raised b).reset = m.reset.raised b := by
  have hclear := m.display.clear_raise b
  simp only [reset, resetCpu, raised, setDisplay, hclear]

theorem perform_raised (h : op.setsFlag = false) :
    (m.raised b).perform op = ((m.perform op).1, (m.perform op).2.raised b) := by
  cases op with
  | setChanged | consumeChanged => cases h
  | step => exact (commutes_raised b).perform (.inl rfl) trivial
  | tick => exact (commutes_raised b).perform (.inr (.inl rfl)) trivial
  | run | runFrame | runPaced =>
    exact (commutes_raised b).perform (.inr (.inr rfl)) trivial
  | reset => simp only [perform, reset_raised]
  | load program =>
    exact perform_load_map (φ := fun d => d.raised b) rfl (fun _ => rfl) program
  | setKey index down => exact perform_setKey_map (φ := fun d => d.raised b) rfl fun _ => rfl
  | setNamedKey layout name down =>
    exact perform_setNamedKey_map (φ := fun d => d.raised b) rfl (fun _ => rfl) layout name down
  | _ => rfl

theorem perform_of_setsFlag (h : op.setsFlag = true) :
    ((m.raised b).perform op).2 = (m.perform op).2 := by
  cases op with
  | setChanged c => rfl
  | consumeChanged => rfl
  | _ => cases h

/-- The flag stays as it is until the host sets it. -/
theorem after_raised (m : Machine) (b : Bool) (ops : List Operation) :
    (m.raised b).after ops = (m.after ops).raised (b && !ops.any Operation.setsFlag) := by
  induction ops generalizing m with
  | nil => rw [List.any_nil, Bool.not_false, Bool.and_true, after_nil, after_nil]
  | cons op ops ih =>
    rw [after_cons, after_cons, List.any_cons]
    cases h : op.setsFlag with
    -- From here on the machines are equal.
    | true => rw [perform_of_setsFlag h, Bool.true_or, Bool.not_true, Bool.and_false, raised_false]
    | false => rw [perform_raised h, Bool.false_or, ih]

/-- A reset makes a machine as good as new, up to the random source, which goes on, and the flag,
which is up if it was up before or some pixel was lit. Whatever the host does from then on, a new
machine with that source replies the same and is the same, but for the flag, which is up only where
the other is up as well, and all of it once the host has set the flag. -/
theorem reset_forgets (m : Machine) :
    let fresh := initial m.config m.source
    (m.reset.PowerOn ∧ m.reset.source = m.source ∧
      (m.reset.display.changed = true ↔
        m.display.changed = true ∨ ∃ x y, m.display.lit x y = true) ∧
      ∀ entropy, m.reset = { ofConfig m.config entropy with
        source := m.source, display := m.reset.display }) ∧
    ∀ ops, (m.reset.after ops).lowered = (fresh.after ops).lowered ∧
      ((fresh.after ops).display.changed = true → (m.reset.after ops).display.changed = true) ∧
      (∀ op, op ≠ .consumeChanged →
        ((m.reset.after ops).perform op).1 = ((fresh.after ops).perform op).1) ∧
      ((∃ op ∈ ops, op.setsFlag = true) → m.reset.after ops = fresh.after ops) := by
  intro fresh
  have hreset : m.reset = fresh.raised m.display.clear.changed := m.reset_eq
  refine ⟨⟨?_, rfl, m.display.clear_changed, fun entropy => ?_⟩, fun ops => ?_⟩
  · rw [hreset]
    exact (initial_powerOn m.config m.source).raised _
  · rw [hreset]
    rfl
  · have hafter := fresh.after_raised m.display.clear.changed ops
    rw [← hreset] at hafter
    refine ⟨?_, ?_, fun op hop => ?_, ?_⟩
    · rw [hafter, lowered_raised]
    · intro hup
      rw [hafter]
      exact Bool.or_eq_true_iff.mpr (.inl hup)
    · rw [hafter]
      cases h : op.setsFlag with
      | false => rw [perform_raised h]
      | true =>
        cases op with
        | setChanged c => rfl
        | consumeChanged => exact absurd rfl hop
        | _ => cases h
    · rintro ⟨op, hop, h⟩
      have hany : ops.any Operation.setsFlag = true := List.any_eq_true.mpr ⟨op, hop, h⟩
      rw [hafter, hany, Bool.not_true, Bool.and_false, raised_false]

/-- A program that draws the digit 0 in the corner. -/
def drawZero : List Operation := [.poke 0x200 0xD0, .poke 0x201 0x05, .step]

set_option maxRecDepth 100000 in
/-- The flag of a drawn screen survives the reset, but no look at it. -/
theorem drawn_flag_survives_until_read :
    let m := (initial { strict := true } (.listed [9, 4] 0)).after (drawZero ++ [.consumeChanged])
    let fresh := initial m.config m.source
    let ops : List Operation := [.poke 0x200 0xC1, .poke 0x201 0xFF]
    (m.display.changed = false ∧ m.display.lit 0 0 = true) ∧ m.reset.display.changed = true ∧
      (m.reset.after ops).display.changed = true ∧ (fresh.after ops).display.changed = false ∧
      ((m.reset.after ops).perform (.run 3)).1 = ((fresh.after ops).perform (.run 3)).1 ∧
      m.reset.after (ops ++ [.consumeChanged]) = fresh.after (ops ++ [.consumeChanged]) := by
  intro m fresh ops
  have hlit : m.display.changed = false ∧ m.display.lit 0 0 = true := by decide +kernel
  obtain ⟨⟨-, -, hup, -⟩, hall⟩ := reset_forgets m
  obtain ⟨-, -, hreply, -⟩ := hall ops
  obtain ⟨-, -, -, hequal⟩ := hall (ops ++ [.consumeChanged])
  exact ⟨hlit, hup.mpr (.inr ⟨0, 0, hlit.2⟩), by decide +kernel, by decide +kernel,
    hreply (.run 3) nofun, hequal ⟨.consumeChanged, by simp, rfl⟩⟩

end Machine

end Chip8
