import Chip8.Proofs.Counting
import Chip8.Proofs.Drawing
import Chip8.Proofs.Writes

/-! The font at the foot of the store. A byte of it stays until something is stored over it, and a
glyph that is still whole is drawn as it stands in the font. -/
namespace Chip8

open Memory (Request)

/-- How many bytes an instruction stores, from the address in the index register on. -/
def Instruction.storeCount : Option Instruction → Nat
  | some (.decimal _) => 3
  | some (.save x) => x + 1
  | _ => 0

namespace Event

variable {past : List Event} {e : Event} {a : Nat}

/-- Whether an instruction, or the host with a write of its own, stores at the address `a`. -/
def stores (a : Nat) : Event → Bool
  | executed m =>
    (List.range (Instruction.storeCount (Instruction.decode m.fetch))).any fun k =>
      wrapped m.i k == a
  | host (.poke b _) => b == a
  | _ => false

/-- Leaves the index register alone: all that comes between two instructions does, unless the host
resets the machine or sets that register. -/
def idle : Event → Bool
  | executed _ => false
  | host .reset | host .resetCpu | host (.setIndex _) => false
  | _ => true

def sinceReset (past : List Event) : List Event := past.rtakeWhile fun e => !e.isReset

theorem sinceReset_of_other (h : e.isReset = false) :
    sinceReset (past ++ [e]) = sinceReset past ++ [e] := by
  rw [sinceReset, List.rtakeWhile_concat_pos _ _ _ (by simp [h]), sinceReset]

theorem any_line {n : Nat} (b : UInt16) (bytes : Fin n → UInt8) :
    (Request.line b bytes).any (fun r => (r.byte? a).isSome) =
      (List.range n).any fun k => wrapped b k == a := by
  have hput : ∀ k : Fin n, ((Request.write (wrapped b k) (bytes k).toNat).byte? a).isSome =
      (wrapped b k == a) := by
    intro k
    simp only [Request.byte?, Request.stored?, Int.ofNat_inj]
    split <;> simp_all
  rw [Bool.eq_iff_iff]
  simp only [Request.line, List.any_eq_true, List.mem_ofFn, List.mem_range]
  constructor
  · rintro ⟨_, ⟨k, rfl⟩, h⟩
    exact ⟨k, k.isLt, (hput k).symm.trans h⟩
  · rintro ⟨k, hk, h⟩
    exact ⟨_, ⟨⟨k, hk⟩, rfl⟩, (hput ⟨k, hk⟩).trans h⟩

/-- Below the program area a program is put nowhere. -/
theorem touches_eq_stores (ha : a < 80) (h : e.isReset = false) : e.touches a = e.stores a := by
  cases e with
  | executed m =>
    simp only [touches, puts, stores]
    cases Instruction.decode m.fetch with
    | none => rfl
    | some i =>
      cases i with
      | decimal x | save x => exact any_line _ _
      | _ => rfl
  | stuck => rfl
  | host op =>
    cases op with
    | poke b v =>
      simp only [touches, puts, stores, Operation.puts, List.any_cons, List.any_nil, Bool.or_false,
        Request.byte?, Request.stored?]
      split <;> simp_all
    | load program =>
      have hbelow : ¬ (program.length ≤ maxProgramSize ∧ (programStart : Int) ≤ a) := by
        rintro ⟨-, h⟩
        have hstart : programStart = 512 := rfl
        omega
      simp only [touches, puts, stores, Operation.puts, List.any_cons, List.any_nil, Bool.or_false,
        Request.byte?, Request.stored?, if_neg hbelow]
      rfl
    | reset => cases h
    | _ => rfl

end Event

/-- The places under the glyph of a digit whose upper left corner is at `(x, y)`, as far as they lie
on the screen. -/
def glyphSpots (digit x y : Nat) : Set Spot :=
  {p | ∃ row < 5, ∃ column < 8, (p.1 = x + column ∧ p.2 = y + row) ∧
    spriteBit (font.getD (5 * digit + row) 0) column = true}

theorem spriteSpots_of_glyph {source : SpriteSource} {digit : Nat}
    (hsource : ∀ row < 5, source (UInt16.ofNat (5 * digit + row)) = font.getD (5 * digit + row) 0)
    (x y : Nat) : spriteSpots source x y (5 * digit : Nat) 5 = glyphSpots digit x y := by
  have haddress : ∀ row : Nat, UInt16.ofInt ((5 * digit : Nat) + (row : Int)) =
      UInt16.ofNat (5 * digit + row) := by
    intro row
    have hsum := toNat_address ((5 * digit : Nat) + (row : Int))
    apply UInt16.toNat_inj.mp
    rw [UInt16.toNat_ofNat']
    omega
  ext p
  rw [mem_spriteSpots, glyphSpots, Set.mem_ofPred_eq]
  constructor
  · rintro ⟨hcolumn, hrow, hb⟩
    obtain ⟨column, hx⟩ := Int.eq_ofNat_of_zero_le hcolumn.1
    obtain ⟨row, hy⟩ := Int.eq_ofNat_of_zero_le hrow.1
    rw [hx, hy, haddress, hsource row (by omega)] at hb
    exact ⟨row, by omega, column, by omega, ⟨by omega, by omega⟩, hb⟩
  · rintro ⟨row, hrow, column, hcolumn, ⟨hx, hy⟩, hb⟩
    have hpx : (p.1 - x : Int) = column := by omega
    have hpy : (p.2 - y : Int) = row := by omega
    refine ⟨by omega, by omega, ?_⟩
    rw [hpx, hpy, haddress, hsource row hrow]
    exact hb

namespace Machine

variable {m n r d : Machine} {op : Operation} {ops : List Operation} {a : Nat}
  {past between rest : List Event}

open Event (sinceReset)
open Word (ofDigits)

theorem read_of_unstored (ha : a < 80)
    (h : ∀ e ∈ m.history ops, e.isReset = false ∧ e.stores a = false) :
    (m.after ops).memory.read a = m.memory.read a := by
  apply read_after_of_untouched
  intro e he
  rw [Event.touches_eq_stores ha (h e he).1]
  exact (h e he).2

theorem read_of_reset (hb : op.isBatch = false) (h : (m.event op).isReset = true) :
    (m.perform op).2.memory.read a = font.getD a 0 := by
  have hop : op = .reset := by
    cases op with
    | step =>
      simp only [event] at h
      split at h <;> cases h
    | reset => rfl
    | _ => cases h
  subst hop
  exact Memory.read_initial a

/-- The font is there, but for the bytes that were stored over since the last reset. -/
def KeepsFont (m : Machine) (past : List Event) : Prop :=
  ∀ a < 80, (∀ e ∈ sinceReset past, e.stores a = false) → m.memory.read a = font.getD a 0

theorem keepsFont_event (hb : op.isBatch = false) (h : m.KeepsFont past) :
    (m.perform op).2.KeepsFont (past ++ [m.event op]) := by
  intro a ha hs
  cases hr : (m.event op).isReset with
  | true => exact read_of_reset hb hr
  | false =>
    rw [Event.sinceReset_of_other hr] at hs
    obtain ⟨hpast, hlast⟩ := List.forall_mem_append.mp hs
    have hevent : m.history [op] = [m.event op] := by
      rw [history_of_singles (by simpa using hb)]
      rfl
    have hkept : (m.after [op]).memory.read a = m.memory.read a := by
      apply read_of_unstored ha
      rw [hevent]
      exact fun e he => ⟨List.mem_singleton.mp he ▸ hr, hlast e he⟩
    exact hkept.trans (h a ha hpast)

theorem keepsFont_initial (config : Config) (source : Random.Source) :
    (initial config source).KeepsFont [] := by
  intro a _ _
  rw [initial]
  exact Memory.read_initial a

theorem keepsFont_after (config : Config) (source : Random.Source) (ops : List Operation) :
    ((initial config source).after ops).KeepsFont ((initial config source).history ops) :=
  history_induction (P := KeepsFont) (fun _ _ _ hb h => keepsFont_event hb h)
    (keepsFont_initial config source) ops

theorem index_of_idle (h : (m.event op).idle = true) (hb : op.isBatch = false) :
    (m.perform op).2.i = m.i := by
  cases op with
  | step =>
    rcases m.step_cases with ⟨d, hd, -⟩ | ⟨-, hs⟩
    · rw [event_of_ready hd] at h
      cases h
    · rw [perform_step, hs]
  | run | runFrame | runPaced => cases hb
  | reset | resetCpu | setIndex value => cases h
  | load program =>
    obtain ⟨_, hl⟩ := m.load_eq program
    rw [hl]
  | setKey index down =>
    obtain ⟨_, hk⟩ := m.setKey_eq index down
    rw [hk]
  | setNamedKey layout name down =>
    obtain ⟨_, hk⟩ := m.setNamedKey_eq layout name down
    rw [hk]
  | _ => rfl

theorem index_after_idle (h : ∀ e ∈ m.events ops, e.idle = true)
    (hops : ∀ op ∈ ops, op.isBatch = false) : (m.after ops).i = m.i := by
  induction ops generalizing m with
  | nil => rfl
  | cons op ops ih =>
    obtain ⟨hfirst, hrest⟩ := List.forall_mem_cons.mp h
    obtain ⟨hb, hops⟩ := List.forall_mem_cons.mp hops
    exact (ih hrest hops).trans (index_of_idle hfirst hb)

/-- The next instruction finds the index register as the one before it left it, unless the host
changed it in between. -/
theorem next_executed {config : Config} {source : Random.Source}
    (h : (initial config source).history ops =
      past ++ .executed r :: (between ++ .executed d :: rest))
    (hidle : ∀ e ∈ between, e.idle = true) :
    d.i = r.cycle.i ∧ d.KeepsFont (past ++ .executed r :: between) := by
  -- Either of the two instructions may be one of a batch, so the batches are taken apart first.
  rw [← events_singles] at h
  obtain ⟨before, op, todo, hs, rfl, hr, hrest⟩ := events_split h
  obtain ⟨rfl, hready⟩ := ready?_of_event hr
  obtain ⟨meanwhile, op, last, rfl, rfl, hd, -⟩ := events_split hrest
  obtain ⟨rfl, hready'⟩ := ready?_of_event hd
  have hsingle : ∀ op ∈ (before ++ [.step]) ++ meanwhile, op.isBatch = false := by
    intro op hop
    have hmem : op ∈ (initial config source).singles ops := by
      rw [hs]
      simp only [List.mem_append, List.mem_cons] at hop ⊢
      tauto
    exact isBatch_of_mem_singles hmem
  have hcycle : (initial config source).after (before ++ [.step]) = r.cycle := by
    rw [after_append, after_cons, after_nil, perform_step, step_of_ready hready]
  have hpast : (initial config source).history ((before ++ [.step]) ++ meanwhile) =
      (initial config source).events before ++ .executed r ::
        ((initial config source).after (before ++ [.step])).events meanwhile := by
    rw [history_of_singles hsingle, events_append, events_append, events, events, hr,
      List.append_assoc, List.singleton_append]
  have hfont := keepsFont_after config source ((before ++ [.step]) ++ meanwhile)
  rw [hpast, after_append, KeepsFont, ← ready?_memory hready'] at hfont
  refine ⟨?_, hfont⟩
  rw [ready?_index hready', ← hcycle]
  exact index_after_idle hidle fun op hop => hsingle op (List.mem_append_right _ hop)

theorem cycle_of_draw {x y height : Fin 16}
    (hi : Instruction.decode d.fetch = some (.draw x y height)) : ∃ collided,
      d.display.Toggled
        (spriteSpots d.spriteSource (d.register x).toNat (d.register y).toNat d.i.toNat height)
        d.cycle.display collided ∧
      d.cycle.register 15 = if collided then 1 else 0 := by
  have hcycle : d.cycle = ((d.setPc (d.pc + 2)).draw x y height).countStep :=
    cycle_of_instruction hi
  refine ⟨(d.display.draw d.spriteSource (d.register x).toNat (d.register y).toNat d.i.toNat
    height).collided, ?_, ?_⟩
  · rw [hcycle]
    exact d.display.draw_toggled d.spriteSource d.i.toNat height (by omega) (by omega)
  · rw [hcycle]
    exact register_setFlag _ _

/-- A draw of five rows shows the glyph that the index register points at, if it is whole. -/
theorem cycle_of_glyph {digit : Nat} {x y : Fin 16} (hd : d.fetch = ofDigits 0xD x y 5)
    (hdigit : digit < 16) (hindex : d.i.toNat = 5 * digit)
    (hwhole : ∀ row < 5, d.memory.read (5 * digit + row : Nat) = font.getD (5 * digit + row) 0) :
    ∃ collided, d.display.Toggled
        (glyphSpots digit (d.register x).toNat (d.register y).toNat) d.cycle.display collided ∧
      d.cycle.register 15 = if collided then 1 else 0 := by
  have hsource : ∀ row < 5, d.spriteSource (UInt16.ofNat (5 * digit + row)) =
      font.getD (5 * digit + row) 0 := by
    intro row hrow
    rw [spriteSource, UInt16.toNat_ofNat', Nat.mod_eq_of_lt (by omega)]
    exact hwhole row hrow
  have hdecoded : Instruction.decode d.fetch = some (.draw x y 5) := by
    rw [hd]
    exact Instruction.decode_of_spells (.draw x y 5)
  obtain ⟨collided, htoggled, hflag⟩ := cycle_of_draw hdecoded
  have hfive : (((5 : Fin 16) : Nat) : Int) = 5 := rfl
  rw [hindex, hfive, spriteSpots_of_glyph hsource] at htoggled
  exact ⟨collided, htoggled, hflag⟩

theorem index_of_glyph {x : Fin 16} (hr : r.fetch = ofDigits 0xF x 2 9) :
    r.cycle.i.toNat = 5 * ((r.register x).toNat % 16) := by
  have hdecoded : Instruction.decode r.fetch = some (.glyph x) := by
    rw [hr]
    exact Instruction.decode_of_spells (.glyph x)
  rw [cycle_of_instruction hdecoded]
  exact toNat_glyph (r.register x)

/-- A byte of the font stays as it is from the power-on or the last reset to the first time that an
instruction or the host stores something over it. No program that is loaded, however large, no reset
of the processor alone and no other instruction changes it. So a glyph whose five bytes were left
alone is drawn as it stands in the font, cut off at the edges of the screen: an instruction that
points at the digit of any register, and a draw of five rows as the next instruction, toggle the
places of its pattern and no others. -/
theorem font_lasts_until_stored_over (config : Config) (source : Random.Source)
    (ops : List Operation) :
    let start := initial config source
    (∀ a < 80, (∀ e ∈ sinceReset (start.history ops), e.stores a = false) →
      font[a]? = some ((start.after ops).memory.read a)) ∧
    (∀ (m : Machine) more, ∀ a < 80,
      (∀ e ∈ m.history more, e.isReset = false ∧ e.stores a = false) →
      (m.after more).memory.read a = m.memory.read a) ∧
    ∀ past r between d rest x a b,
      start.history ops = past ++ .executed r :: (between ++ .executed d :: rest) →
      r.fetch = ofDigits 0xF x 2 9 → d.fetch = ofDigits 0xD a b 5 →
      (∀ e ∈ between, e.idle = true) →
      let digit := (r.register x).toNat % 16
      (∀ row < 5, ∀ e ∈ sinceReset (past ++ .executed r :: between),
        e.stores (5 * digit + row) = false) →
      ∃ collided, d.display.Toggled
          (glyphSpots digit (d.register a).toNat (d.register b).toNat) d.cycle.display collided ∧
        d.cycle.register 15 = if collided then 1 else 0 := by
  intro start
  refine ⟨fun a ha h => ?_, fun m more a ha h => read_of_unstored ha h, ?_⟩
  · have hfont : a < font.length := ha
    rw [keepsFont_after config source ops a ha h, List.getD_eq_getElem?_getD,
      List.getElem?_eq_getElem hfont]
    rfl
  · intro past r between d rest x a b hhistory hglyph hdraw hidle digit hkept
    have hdigit : digit < 16 := Nat.mod_lt _ (by decide)
    obtain ⟨hindex, hfont⟩ := next_executed hhistory hidle
    exact cycle_of_glyph hdraw hdigit (hindex ▸ index_of_glyph hglyph) fun row hrow =>
      hfont (5 * digit + row) (by omega) (hkept row hrow)

/-- The glyph of seven is spoilt and mended by a reset. Then it is drawn over the lower right
corner, by a register that holds more than the digit. -/
def cornerSeven : List Operation :=
  [.poke 36 0xFF, .reset, .load [0xF3, 0x29, 0xD1, 0x25], .setRegister 3 0x27, .setRegister 1 62,
    .setRegister 2 30]

set_option maxRecDepth 100000 in
/-- Though a tick and a key come between the two instructions, the upper row of the glyph shows its
left half in the corner, and the row below it nothing. -/
theorem corner_seven_is_cut_off :
    let start := initial {} (.listed [0] 0)
    let m := start.after cornerSeven
    let d := m.cycle.after [.tick, .setKey 3 true]
    let rest := [.step, .tick, .setKey 3 true, .step]
    (start.history (cornerSeven ++ rest) = start.events cornerSeven ++ .executed m ::
        ([.host .tick, .host (.setKey 3 true)] ++ .executed d :: []) ∧
      m.fetch = ofDigits 0xF 3 2 9 ∧ (m.register 3).toNat % 16 = 7 ∧
      d.fetch = ofDigits 0xD 1 2 5) ∧
      (∀ row < 5, ∀ e ∈ sinceReset (start.events cornerSeven ++ .executed m ::
        [.host .tick, .host (.setKey 3 true)]), e.stores (5 * 7 + row) = false) ∧
      (font[36]? = some (m.memory.read 36) ∧
        (m.after rest).memory.read 36 = m.memory.read 36) ∧
      d.cycle.display.lit 62 30 ≠ d.display.lit 62 30 ∧
      d.cycle.display.lit 62 31 = d.display.lit 62 31 := by
  intro start m d rest
  obtain ⟨hfont, hlasts, -⟩ := font_lasts_until_stored_over {} (.listed [0] 0) cornerSeven
  obtain ⟨-, -, hglyph⟩ := font_lasts_until_stored_over {} (.listed [0] 0) (cornerSeven ++ rest)
  have hm : (m.fault = none ∧ m.keypad.waiting = none) ∧ m.fetch = ofDigits 0xF 3 2 9 ∧
      m.register 3 = 0x27 := by decide +kernel
  have hd : (d.fault = none ∧ d.keypad.waiting = none) ∧ d.fetch = ofDigits 0xD 1 2 5 ∧
      d.register 1 = 62 ∧ d.register 2 = 30 := by decide +kernel
  obtain ⟨hrunning, hpoints, hthree⟩ := hm
  obtain ⟨hrunning', hdraws, hone, htwo⟩ := hd
  have hready := ready?_of_running hrunning.1 hrunning.2
  have hready' := ready?_of_running hrunning'.1 hrunning'.2
  have hevents : m.events rest =
      [.executed m, .host .tick, .host (.setKey 3 true), .executed d] := by
    rw [events, event_of_ready hready, perform_step, step_of_ready hready]
    exact congrArg (fun e => [.executed m, .host .tick, .host (.setKey 3 true), e])
      (event_of_ready hready')
  have hhistory : start.history (cornerSeven ++ rest) = start.events cornerSeven ++
      .executed m :: ([.host .tick, .host (.setKey 3 true)] ++ .executed d :: []) := by
    rw [history_of_singles (by decide), events_append]
    exact congrArg (start.events cornerSeven ++ ·) hevents
  have hunstored : ∀ row < 5, ∀ e ∈ sinceReset (start.events cornerSeven ++ .executed m ::
      [.host .tick, .host (.setKey 3 true)]), e.stores (5 * 7 + row) = false := by
    decide +kernel
  have hmended : ∀ e ∈ sinceReset (start.history cornerSeven), e.stores 36 = false := by
    decide +kernel
  have hleft : ∀ e ∈ m.history rest, e.isReset = false ∧ e.stores 36 = false := by
    rw [history_of_singles (by decide), hevents]
    decide +kernel
  have hseven : (m.register 3).toNat % 16 = 7 := by
    rw [hthree]
    rfl
  have hdrawn := hglyph _ m _ d [] 3 1 2 hhistory hpoints hdraws (by decide)
  rw [hseven, hone, htwo] at hdrawn
  obtain ⟨collided, htoggled, -⟩ := hdrawn hunstored
  have hcorner : ((62, 30) : Spot) ∈ glyphSpots 7 (62 : UInt8).toNat (30 : UInt8).toNat :=
    ⟨0, by decide, 0, by decide, by decide, by decide⟩
  have hbelow : ((62, 31) : Spot) ∉ glyphSpots 7 (62 : UInt8).toNat (30 : UInt8).toNat := by
    rintro ⟨row, -, column, -, ⟨hx, hy⟩, hb⟩
    obtain rfl : 0 = column := Nat.add_left_cancel (n := 62) hx
    obtain rfl : 1 = row := Nat.add_left_cancel (n := 30) hy
    cases hb
  exact ⟨⟨hhistory, hpoints, hseven, hdraws⟩, hunstored,
    ⟨hfont 36 (by decide) hmended, hlasts m rest 36 (by decide) hleft⟩,
    (htoggled.lit_ne_iff _).mpr hcorner, not_not.mp (mt (htoggled.lit_ne_iff (62, 31)).mp hbelow)⟩

end Machine

end Chip8
