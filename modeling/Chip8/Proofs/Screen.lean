import Chip8.Proofs.History
import Chip8.Proofs.Sprite
import Chip8.Proofs.Width

/-! The screen is the sum of the draws since it was last cleared. -/
namespace Chip8

variable {px : Fin 64} {py : Fin 32}

/-- What a single operation other than a step does to the screen. -/
def Operation.onDisplay (d : Display) : Operation → Display
  | .reset => d.clear
  | .setChanged b => d.setChanged b
  | .consumeChanged => d.setChanged false
  | _ => d

/-- A draw as it was executed, with the memory that it read. -/
structure Stamp where
  x : UInt8
  y : UInt8
  index : UInt16
  height : Fin 16
  memory : Memory

/-- The sprite has a set bit over the place `(px, py)`. Addresses wrap, places do not. -/
def Stamp.Covers (s : Stamp) (px : Fin 64) (py : Fin 32) : Prop :=
  (s.x.toNat ≤ px ∧ px - s.x.toNat ≤ 7) ∧ (s.y.toNat ≤ py ∧ py - s.y.toNat < s.height) ∧
    (s.memory.read ((s.index.toNat + (py - s.y.toNat)) % 65536 : Nat)).toNat.testBit
      (7 - (px - s.x.toNat)) = true

instance (s : Stamp) (px : Fin 64) (py : Fin 32) : Decidable (s.Covers px py) :=
  inferInstanceAs (Decidable (_ ∧ _))

namespace Machine

variable {m r : Machine} {op : Operation}

def stamp (m : Machine) (x y height : Fin 16) : Stamp :=
  ⟨m.register x, m.register y, m.i, height, m.memory⟩

theorem perform_display (hb : op.isBatch = false) (hs : op ≠ .step) :
    (m.perform op).2.display = op.onDisplay m.display := by
  cases op with
  | step => exact absurd rfl hs
  | run | runFrame | runPaced => cases hb
  | load program =>
    obtain ⟨_, h⟩ := m.load_eq program
    rw [h]
    rfl
  | setKey index down =>
    obtain ⟨_, h⟩ := m.setKey_eq index down
    rw [h]
    rfl
  | setNamedKey layout name down =>
    obtain ⟨_, h⟩ := m.setNamedKey_eq layout name down
    rw [h]
    rfl
  | _ => rfl

theorem step_display_of_ready (h : m.ready? = some r) :
    m.step.2.display = r.nextDisplay (Instruction.decode r.fetch) := by
  rw [step_of_ready h, cycle_display]

theorem step_display_of_not_ready (h : m.ready? = none) : m.step.2.display = m.display := by
  rw [step_of_not_ready h]

theorem ready?_display (h : m.ready? = some r) : r.display = m.display := by
  obtain ⟨v, p, rfl⟩ := ready?_eq_some h
  rfl

theorem spriteCovers_iff (m : Machine) (x y height : Fin 16) :
    SpriteCovers m.spriteSource (m.register x).toNat (m.register y).toNat m.i.toNat height px py ↔
      (m.stamp x y height).Covers px py := by
  simp only [SpriteCovers, Stamp.Covers, stamp, spriteSource, spriteBit]
  by_cases h : (m.register x).toNat ≤ px ∧ (m.register y).toNat ≤ py
  · have hx : (px - (m.register x).toNat : Int) = (px - (m.register x).toNat : Nat) := by omega
    have hy : (py - (m.register y).toNat : Int) = (py - (m.register y).toNat : Nat) := by omega
    have ha : (UInt16.ofInt (m.i.toNat + (py - (m.register y).toNat : Nat))).toNat =
        (m.i.toNat + (py - (m.register y).toNat)) % 65536 := by
      have := toNat_address (m.i.toNat + (py - (m.register y).toNat : Nat))
      omega
    rw [hx, hy, ha, Int.toNat_natCast]
    constructor
    · rintro ⟨_, _, hb⟩
      exact ⟨by omega, by omega, hb⟩
    · rintro ⟨_, _, hb⟩
      exact ⟨by omega, by omega, hb⟩
  · constructor
    · rintro ⟨_, _, _⟩
      omega
    · rintro ⟨_, _, _⟩
      omega

/-- The draws since the screen was last cleared, oldest first. -/
def stampsAfter (stamps : List Stamp) : Event → List Stamp
  | .executed m =>
    match Instruction.decode m.fetch with
    | some .clear => []
    | some (.draw x y height) => stamps ++ [m.stamp x y height]
    | _ => stamps
  | .host .reset => []
  | _ => stamps

def stamps (history : List Event) : List Stamp := history.foldl stampsAfter []

/-- Every pixel is lit that an odd number of the draws cover, and no other. -/
def ShowsStamps (m : Machine) (stamps : List Stamp) : Prop :=
  ∀ px py, m.display.lit px py = decide (Odd (stamps.countP fun s => s.Covers px py))

theorem lit_clear (d : Display) (px : Fin 64) (py : Fin 32) : d.clear.lit px py = false := by
  simp [Display.lit, Display.clear, Display.dark, Vector.get]

theorem showsStamps_draw {stamps : List Stamp} (h : m.ShowsStamps stamps)
    (hd : r.display = m.display) (x y height : Fin 16) (px : Fin 64) (py : Fin 32) :
    (r.nextDisplay (some (.draw x y height))).lit px py =
      decide (Odd ((stamps ++ [r.stamp x y height]).countP fun s => s.Covers px py)) := by
  rw [nextDisplay, Display.lit_draw _ _ _ _ (by omega) (by omega), hd, h px py, List.countP_append]
  simp only [spriteCovers_iff]
  by_cases hc : (r.stamp x y height).Covers px py
  · simp only [hc, decide_true, List.countP_singleton, if_true, decide_odd_succ, Bool.xor_true]
  · simp [hc]

theorem showsStamps_step {stamps : List Stamp} (h : m.ShowsStamps stamps) :
    m.step.2.ShowsStamps (stampsAfter stamps (m.event .step)) := by
  intro px py
  cases hr : m.ready? with
  | none =>
    rw [event_of_not_ready hr, step_display_of_not_ready hr]
    exact h px py
  | some r =>
    have hd := ready?_display hr
    rw [event_of_ready hr, step_display_of_ready hr, stampsAfter]
    split
    · rename_i hi
      rw [hi, nextDisplay, lit_clear]
      rfl
    · rename_i x y height hi
      rw [hi]
      exact showsStamps_draw h hd x y height px py
    · rename_i hclear hdraw
      rw [nextDisplay_of_other hclear hdraw, hd]
      exact h px py

theorem showsStamps_event (m : Machine) (stamps : List Stamp) (op : Operation)
    (hb : op.isBatch = false) (h : m.ShowsStamps stamps) :
    (m.perform op).2.ShowsStamps (stampsAfter stamps (m.event op)) := by
  by_cases hs : op = .step
  · subst hs
    exact showsStamps_step h
  · intro px py
    rw [perform_display hb hs, event_of_ne_step hs]
    cases op with
    | reset =>
      rw [Operation.onDisplay, lit_clear]
      rfl
    | _ => exact h px py

theorem showsStamps_initial (config : Config) (source : Random.Source) :
    (initial config source).ShowsStamps [] := by
  intro px py
  simp [initial, Display.blank, Display.dark, Display.lit, Vector.get]

end Machine

/-- The events that can change a pixel. -/
def Event.OnScreen : Event → Prop
  | .executed m => Instruction.decode m.fetch = some .clear ∨
      ∃ x y height, Instruction.decode m.fetch = some (.draw x y height)
  | .stuck => False
  | .host op => op = .reset

namespace Machine

theorem pixels_of_not_onScreen {m : Machine} {op : Operation} (hb : op.isBatch = false)
    (h : ¬ (m.event op).OnScreen) : (m.perform op).2.display.pixels = m.display.pixels := by
  by_cases hs : op = .step
  · subst hs
    rw [perform_step]
    cases hr : m.ready? with
    | none => rw [step_display_of_not_ready hr]
    | some r =>
      rw [event_of_ready hr, Event.OnScreen, not_or] at h
      rw [step_display_of_ready hr, ← ready?_display hr,
        nextDisplay_of_other h.1 fun x y height hi => h.2 ⟨x, y, height, hi⟩]
  · rw [event_of_ne_step hs, Event.OnScreen] at h
    rw [perform_display hb hs]
    cases op with
    | reset => exact absurd rfl h
    | _ => rfl

/-- After any run a pixel is lit if an odd number of the draws since the last clearing cover it.
Nothing but clearing and drawing changes a pixel, and no draw one to the left of or above its
corner. -/
theorem lit_iff_odd_stamps (config : Config) (source : Random.Source) (ops : List Operation) :
    let m := (initial config source).after ops
    (∀ px py, m.display.lit px py = true ↔
      Odd ((stamps ((initial config source).history ops)).countP fun s => s.Covers px py)) ∧
    (∀ op, op.isBatch = false → ¬ (m.event op).OnScreen →
      (m.perform op).2.display.pixels = m.display.pixels) ∧
    ∀ r x y height, m.ready? = some r → Instruction.decode r.fetch = some (.draw x y height) →
      ∀ (px : Fin 64) (py : Fin 32), px < (r.register x).toNat ∨ py < (r.register y).toNat →
        m.step.2.display.lit px py = m.display.lit px py := by
  refine ⟨fun px py => ?_, fun op hb h => pixels_of_not_onScreen hb h, ?_⟩
  · have h : ((initial config source).after ops).ShowsStamps
        (stamps ((initial config source).history ops)) :=
      foldl_history (P := ShowsStamps) showsStamps_event (showsStamps_initial config source) ops
    rw [h px py, decide_eq_true_eq]
  · intro r x y height hr hi px py hout
    have hc : ¬ (r.stamp x y height).Covers px py := fun hc => by
      have hx : (r.register x).toNat ≤ px := hc.1.1
      have hy : (r.register y).toNat ≤ py := hc.2.1.1
      omega
    rw [step_display_of_ready hr, hi, nextDisplay, Display.lit_draw _ _ _ _ (by omega) (by omega),
      ready?_display hr, decide_eq_false fun h => hc ((r.spriteCovers_iff x y height).mp h),
      Bool.xor_false]

/-- A glyph is about to be drawn over the lower right corner. -/
def cornerGlyph : List Operation :=
  [.poke 0x200 0xD0, .poke 0x201 0x15, .setRegister 0 62, .setRegister 1 30]

set_option maxRecDepth 100000 in
/-- It shows in the corner and not on the other side. -/
theorem corner_glyph_is_cut_off :
    let m := (initial {} (.listed [0] 0)).after cornerGlyph
    (m.after [.step]).display.lit 62 30 = true ∧ (m.after [.step]).display.lit 0 30 = false ∧
      Operation.tick.isBatch = false ∧ m.tick.display.pixels = m.display.pixels ∧
      ∃ r, m.ready? = some r ∧ Instruction.decode r.fetch = some (.draw 0 1 5) ∧
        0 < (r.register 0).toNat ∧ m.step.2.display.lit 0 30 = m.display.lit 0 30 := by
  intro m
  obtain ⟨hlit, -, -⟩ := lit_iff_odd_stamps {} (.listed [0] 0) (cornerGlyph ++ [.step])
  obtain ⟨-, hother, hstep⟩ := lit_iff_odd_stamps {} (.listed [0] 0) cornerGlyph
  rw [after_append] at hlit
  have hdraw : Instruction.decode m.fetch = some (.draw 0 1 5) := by decide +kernel
  have hfault : m.fault = none := by decide +kernel
  have hwaiting : m.keypad.waiting = none := by decide +kernel
  have hready : m.ready? = some m := by simp [ready?, halted, resume?, hfault, hwaiting]
  have hout : 0 < (m.register 0).toNat := by decide +kernel
  have htick : ¬ (m.event .tick).OnScreen := by simp [event, Event.OnScreen]
  refine ⟨(hlit 62 30).mpr (by decide +kernel), ?_, rfl, hother .tick rfl htick, m, hready, hdraw,
    hout, hstep m 0 1 5 hready hdraw 0 30 (.inl hout)⟩
  rw [Bool.eq_false_iff]
  exact mt (hlit 0 30).mp (by decide +kernel)

end Machine

end Chip8
