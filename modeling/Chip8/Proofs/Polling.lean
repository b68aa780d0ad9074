import Chip8.Proofs.Screen

/-! The flag of the screen: raised by every change until the host lowers it, and by nothing else. -/
namespace Chip8

variable {source : SpriteSource} {x y address height : Int}

namespace Display

variable {d e f : Display}

/-- From `d` to `e` no pixel changes unnoticed, and a raised flag stays. -/
def Noticed (d e : Display) : Prop := e.changed = false → d.changed = false ∧ e.pixels = d.pixels

/-- From `d` to `e` the flag is raised if some pixel is different in the end, and not otherwise. -/
def Exact (d e : Display) : Prop := e.changed = (d.changed || decide (e.pixels ≠ d.pixels))

theorem Noticed.refl (d : Display) : Noticed d d := fun h => ⟨h, rfl⟩

theorem Noticed.trans (h : Noticed d e) (h' : Noticed e f) : Noticed d f := by
  intro hf
  obtain ⟨he, hp⟩ := h' hf
  obtain ⟨hd, hp'⟩ := h he
  exact ⟨hd, hp.trans hp'⟩

theorem Noticed.changed (h : Noticed d e) (hd : d.changed = true) : e.changed = true := by
  by_contra he
  rw [Bool.not_eq_true] at he
  rw [(h he).1] at hd
  cases hd

theorem Exact.refl (d : Display) : Exact d d := by
  simp [Exact]

theorem Exact.changed_iff (h : Exact d e) (hd : d.changed = false) :
    e.changed = true ↔ e.pixels ≠ d.pixels := by
  rw [h, hd, Bool.false_or, decide_eq_true_eq]

theorem Exact.noticed (h : Exact d e) : Noticed d e := by
  intro he
  rw [Exact, he] at h
  simpa using h.symm

theorem any_lit_iff (d : Display) : d.pixels.any id = true ↔ dark ≠ d.pixels := by
  rw [← not_iff_not, Bool.not_eq_true, not_ne_iff, Vector.any_eq_false]
  constructor
  · intro h
    apply Vector.ext
    intro k hk
    simpa [dark] using h k hk
  · intro h k hk
    simp [← h, dark]

theorem exact_clear (d : Display) : Exact d d.clear := by
  rw [Exact, clear, Bool.eq_iff_iff, Bool.or_eq_true, Bool.or_eq_true, any_lit_iff,
    decide_eq_true_eq]

/-- On the screen a draw has a cell exactly if it changes a pixel. -/
theorem exact_draw (d : Display) (source : SpriteSource) (address height : Int) (hx : 0 ≤ x)
    (hy : 0 ≤ y) : Exact d (d.draw source x y address height).display := by
  rw [Exact, draw_changed (low_of_nonneg hx hy)]
  cases hc : spriteCells source x y address height with
  | nil =>
    have hp : (d.draw source x y address height).display.pixels = d.pixels := by
      simp [draw, hc, Drawing.flipCells]
    simp [hp]
  | cons c cells =>
    obtain ⟨px, py, hcover⟩ := exists_covers hx hy (show c ∈ spriteCells .. by rw [hc]; simp)
    simp [draw_pixels_ne hx hy hcover]

/-- Even where it leaves the screen, a draw that flips a pixel raises the flag. -/
theorem noticed_draw (d : Display) (source : SpriteSource) (x y address height : Int) :
    Noticed d (d.draw source x y address height).display := by
  by_cases h : ∀ c ∈ spriteCells source x y address height, -2048 ≤ c
  · intro hf
    rw [draw_changed h, Bool.or_eq_false_iff, Bool.not_eq_false', List.isEmpty_iff] at hf
    refine ⟨hf.1, ?_⟩
    simp [draw, hf.2, Drawing.flipCells]
  · obtain ⟨c, cells, hc, hlow⟩ := spriteCells_of_low h
    rw [draw_of_low hc hlow]
    exact Noticed.refl d

end Display

/-- What a host can do that has the machine and its screen in hand. -/
inductive Access
  | operation (op : Operation)
  | clear
  | draw (source : SpriteSource) (x y address height : Int)

namespace Access

/-- By hand or by reading it, the host lowers the flag. -/
def lowers : Access → Bool
  | operation (.setChanged false) | operation .consumeChanged => true
  | _ => false

end Access

namespace Machine

open Display

variable {m r : Machine} {op : Operation} {a : Access} {shown copy : Pixels}

/-- A draw that fails counts with what it has done until then. -/
def access (m : Machine) : Access → Machine
  | .operation op => (m.perform op).2
  | .clear => m.setDisplay m.display.clear
  | .draw source x y address height =>
    m.setDisplay (m.display.draw source x y address height).display

def afterAccesses (m : Machine) : List Access → Machine
  | [] => m
  | a :: as => (m.access a).afterAccesses as

/-- The pixels at the moment when the flag was last lowered, or those `shown` if it never was. -/
def lastLowered (m : Machine) (shown : Pixels) : List Access → Pixels
  | [] => shown
  | a :: as => (m.access a).lastLowered (if a.lowers then (m.access a).display.pixels else shown) as

/-- The copy of a host that renews it when it reads the flag and finds it raised. -/
def renewed (m : Machine) (copy : Pixels) : Access → Pixels
  | .operation .consumeChanged =>
    if m.display.consumeChanged.1 then m.display.pixels else copy
  | _ => copy

def hostCopy (m : Machine) (copy : Pixels) : List Access → Pixels
  | [] => copy
  | a :: as => (m.access a).hostCopy (m.renewed copy a) as

/-- By hand the host lowers the flag only while its copy is good. -/
def LowersWithCare (m : Machine) (copy : Pixels) : List Access → Prop
  | [] => True
  | a :: as => (a = .operation (.setChanged false) → copy = m.display.pixels) ∧
      (m.access a).LowersWithCare (m.renewed copy a) as

theorem exact_nextDisplay (m : Machine) (i : Option Instruction) :
    Exact m.display (m.nextDisplay i) := by
  unfold nextDisplay
  split
  · exact exact_clear m.display
  · exact exact_draw _ _ _ _ (by omega) (by omega)
  · exact Exact.refl m.display

theorem exact_step (m : Machine) : Exact m.display m.step.2.display := by
  cases hr : m.ready? with
  | none =>
    rw [step_display_of_not_ready hr]
    exact Exact.refl m.display
  | some r =>
    rw [step_display_of_ready hr, ← ready?_display hr]
    exact exact_nextDisplay r _

theorem noticed_single (hb : op.isBatch = false) (hl : (Access.operation op).lowers = false) :
    Noticed m.display (m.perform op).2.display := by
  by_cases hs : op = .step
  · subst hs
    exact (exact_step m).noticed
  · rw [perform_display hb hs]
    cases op with
    | reset => exact (exact_clear m.display).noticed
    | setChanged b =>
      cases b with
      | false => cases hl
      | true =>
        intro h
        cases h
    | consumeChanged => cases hl
    | _ => exact Noticed.refl m.display

theorem noticed_after {ops : List Operation}
    (h : ∀ op ∈ ops, op.isBatch = false ∧ (Access.operation op).lowers = false) :
    Noticed m.display (m.after ops).display := by
  induction ops generalizing m with
  | nil => exact Noticed.refl m.display
  | cons op ops ih =>
    obtain ⟨hb, hl⟩ := h op (by simp)
    exact (noticed_single hb hl).trans (ih fun o ho => h o (by simp [ho]))

theorem noticed_access (h : a.lowers = false) : Noticed m.display (m.access a).display := by
  cases a with
  | operation op =>
    rw [access, ← after_unrolled]
    apply noticed_after
    intro o ho
    refine ⟨isBatch_of_mem_unrolled ho, ?_⟩
    rcases mem_unrolled ho with ⟨_, rfl⟩ | rfl | rfl
    · exact h
    · rfl
    · rfl
  | clear => exact (exact_clear m.display).noticed
  | draw source x y address height => exact noticed_draw m.display source x y address height

/-- While the flag is down, the screen is what `shown` says. -/
def Shows (m : Machine) (shown : Pixels) : Prop :=
  m.display.changed = false → m.display.pixels = shown

theorem shows_initial (config : Config) (source : Random.Source) :
    (initial config source).Shows dark := fun _ => rfl

theorem shows_access (h : m.Shows shown) (hl : a.lowers = false) : (m.access a).Shows shown := by
  intro hc
  obtain ⟨hd, hp⟩ := noticed_access hl hc
  exact hp.trans (h hd)

theorem shows_lastLowered (h : m.Shows shown) (as : List Access) :
    (m.afterAccesses as).Shows (m.lastLowered shown as) := by
  induction as generalizing m shown with
  | nil => exact h
  | cons a as ih =>
    rw [afterAccesses, lastLowered]
    apply ih
    split
    · exact fun _ => rfl
    · rename_i hl
      exact shows_access h (Bool.eq_false_of_not_eq_true hl)

/-- A good copy is good after the flag was read, raised or not. -/
theorem renewed_eq (h : m.Shows copy) : m.renewed copy (.operation .consumeChanged) =
    (m.access (.operation .consumeChanged)).display.pixels := by
  change (if m.display.changed then m.display.pixels else copy) = m.display.pixels
  split
  · rfl
  · rename_i hc
    exact (h (Bool.eq_false_of_not_eq_true hc)).symm

theorem shows_renewed (h : m.Shows copy)
    (ha : a = .operation (.setChanged false) → copy = m.display.pixels) :
    (m.access a).Shows (m.renewed copy a) := by
  by_cases hc : a = .operation .consumeChanged
  · subst hc
    exact fun _ => (renewed_eq h).symm
  · have hr : m.renewed copy a = copy := by
      unfold renewed
      split
      · exact absurd rfl hc
      · rfl
    rw [hr]
    by_cases hs : a = .operation (.setChanged false)
    · subst hs
      exact fun _ => (ha rfl).symm
    · apply shows_access h
      unfold Access.lowers
      split
      · exact absurd rfl hs
      · exact absurd rfl hc
      · rfl

theorem shows_hostCopy (h : m.Shows copy) {as : List Access} (ha : m.LowersWithCare copy as) :
    (m.afterAccesses as).Shows (m.hostCopy copy as) := by
  induction as generalizing m copy with
  | nil => exact h
  | cons a as ih => exact ih (shows_renewed h ha.1) ha.2

theorem lowersWithCare_of_not_mem {as : List Access}
    (h : Access.operation (.setChanged false) ∉ as) : m.LowersWithCare copy as := by
  induction as generalizing m copy with
  | nil => trivial
  | cons a as ih =>
    rw [List.mem_cons, not_or] at h
    exact ⟨fun ha => absurd ha.symm h.1, ih h.2⟩

theorem afterAccesses_append (m : Machine) (as bs : List Access) :
    m.afterAccesses (as ++ bs) = (m.afterAccesses as).afterAccesses bs := by
  induction as generalizing m with
  | nil => rfl
  | cons a as ih => exact ih (m.access a)

theorem hostCopy_append (m : Machine) (copy : Pixels) (as bs : List Access) :
    m.hostCopy copy (as ++ bs) = (m.afterAccesses as).hostCopy (m.hostCopy copy as) bs := by
  induction as generalizing m copy with
  | nil => rfl
  | cons a as ih => exact ih (m.access a) (m.renewed copy a)

/-- While the flag is down the screen is what it was when the host last lowered it. So a host that
renews its copy whenever it reads the flag and finds it raised has the present screen in hand, as
long as it does not lower the flag by hand over a copy that is out of date. A step or a reset raises
the flag exactly if it changes the screen, and only the host lowers it. -/
theorem no_update_lost (config : Config) (source : Random.Source) (as : List Access) :
    let start := initial config source
    ((start.afterAccesses as).display.changed = false →
      (start.afterAccesses as).display.pixels = start.lastLowered dark as) ∧
    (start.LowersWithCare dark as →
      start.hostCopy dark (as ++ [.operation .consumeChanged]) =
        (start.afterAccesses (as ++ [.operation .consumeChanged])).display.pixels) ∧
    ∀ m : Machine,
      (m.display.changed = false →
        (m.step.2.display.changed = true ↔ m.step.2.display.pixels ≠ m.display.pixels) ∧
        (m.reset.display.changed = true ↔ m.reset.display.pixels ≠ m.display.pixels)) ∧
      ∀ a, a.lowers = false → m.display.changed = true → (m.access a).display.changed = true := by
  intro start
  have hstart : start.Shows dark := shows_initial config source
  refine ⟨shows_lastLowered hstart as, fun hcare => ?_, fun m => ⟨fun hc => ⟨?_, ?_⟩, ?_⟩⟩
  · rw [hostCopy_append, afterAccesses_append]
    exact renewed_eq (shows_hostCopy hstart hcare)
  · exact (exact_step m).changed_iff hc
  · exact (exact_clear m.display).changed_iff hc
  · intro a ha hc
    exact (noticed_access ha).changed hc

/-- A glyph in the corner, a draw that fails, one that is half outside, and a clearing. -/
def cornerAccesses : List Access := cornerGlyph.map .operation ++
  [.operation .step, .draw (fun _ => 255) (-3) (-40) 0 2, .draw (fun _ => 255) 60 30 0 4, .clear]

set_option maxRecDepth 100000 in
/-- All of it is noticed. -/
theorem corner_update_is_kept :
    let start := initial {} (.listed [0] 0)
    let polled := cornerAccesses ++ [.operation .consumeChanged]
    let m := start.after cornerGlyph
    ((start.afterAccesses polled).display.changed = false ∧
      (start.afterAccesses polled).display.pixels = start.lastLowered dark polled) ∧
    (start.LowersWithCare dark cornerAccesses ∧
      start.hostCopy dark polled = (start.afterAccesses polled).display.pixels) ∧
    m.display.changed = false ∧ m.step.2.display.changed = true ∧
      m.step.2.display.pixels ≠ m.display.pixels ∧
      (Access.operation .tick).lowers = false ∧
      (m.step.2.access (.operation .tick)).display.changed = true := by
  intro start polled m
  obtain ⟨hkept, -, -⟩ := no_update_lost {} (.listed [0] 0) polled
  obtain ⟨-, hcopy, hall⟩ := no_update_lost {} (.listed [0] 0) cornerAccesses
  have hcare : start.LowersWithCare dark cornerAccesses :=
    lowersWithCare_of_not_mem (by simp [cornerAccesses, cornerGlyph])
  have hlow : (start.afterAccesses polled).display.changed = false := by decide +kernel
  have hdown : m.display.changed = false := by decide +kernel
  have hraised : m.step.2.display.changed = true := by decide +kernel
  exact ⟨⟨hlow, hkept hlow⟩, ⟨hcare, hcopy hcare⟩, hdown, hraised, ((hall m).1 hdown).1.mp hraised,
    rfl, (hall m.step.2).2 (.operation .tick) rfl hraised⟩

end Machine

end Chip8
