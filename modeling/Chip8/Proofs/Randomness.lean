import Chip8.Proofs.Commuting

/-! Where chance comes in: at random instructions, which take one value each. A run is the same for
all sources that begin with the values it takes. -/
namespace Chip8

namespace Random.Source

/-- What is left of a source after `n` draws. -/
def rest : Source → Nat → Source
  | s, 0 => s
  | s, n + 1 => s.draw.2.rest n

/-- The value that comes after `n` others. -/
def value (s : Source) (n : Nat) : UInt8 := (s.rest n).draw.1

theorem rest_add (s : Source) (n k : Nat) : s.rest (n + k) = (s.rest n).rest k := by
  induction n generalizing s with
  | zero => rw [Nat.zero_add, rest]
  | succ n ih =>
    rw [Nat.succ_add]
    exact ih s.draw.2

end Random.Source

open Chip8.Random (Source)

def Instruction.isRandom : Instruction → Bool
  | random _ _ => true
  | _ => false

namespace Machine

variable {m n d : Machine} {i : Instruction} {op : Operation} {ops : List Operation}
  {s t : Source} {total k : Nat}

/-- The instruction takes a value from the source, whatever its mask lets through. -/
def draws (m : Machine) : Bool := (Instruction.decode m.fetch).any Instruction.isRandom

def drawCount (m : Machine) : Nat := m.draws.toNat

theorem draws_iff : m.draws = true ↔
    ∃ x mask, Instruction.decode m.fetch = some (.random x mask) := by
  unfold draws
  cases Instruction.decode m.fetch with
  | none => simp
  | some i => cases i <;> simp [Instruction.isRandom]

theorem draws_of_instruction (h : Instruction.decode m.fetch = some i) : m.draws = i.isRandom := by
  simp [draws, h]

theorem price_drawCount (ds : List Machine) : price drawCount ds = (ds.filter draws).length := by
  induction ds with
  | nil => rfl
  | cons d ds ih =>
    have hcons : price drawCount (d :: ds) = drawCount d + price drawCount ds := rfl
    cases hd : d.draws with
    | false => simp [hcons, ih, drawCount, hd]
    | true =>
      simp [hcons, ih, drawCount, hd]
      omega

/-! What a run does to the source. -/

theorem execute_source (hi : i.isRandom = false) (opcode address : UInt16) :
    (m.execute opcode address i).source = m.source := by
  have hbranch := m.execute_of_branches opcode address (i := i)
  cases i with
  | ret | call target | skip condition | alu op x y =>
    obtain ⟨_, _, _, _, h⟩ := hbranch rfl
    rw [h]
  | random => cases hi
  | restore => simp only [execute, restore]
  | _ => rfl

theorem cycle_source (m : Machine) : m.cycle.source = m.source.rest m.drawCount := by
  cases hi : Instruction.decode m.fetch with
  | none =>
    rw [cycle_of_no_instruction hi, drawCount, draws, hi]
    rfl
  | some i =>
    rw [cycle_of_instruction hi, drawCount, draws_of_instruction hi]
    cases hr : i.isRandom with
    | false => exact execute_source hr m.fetch m.pc
    | true =>
      cases i with
      | random x mask => rfl
      | _ => cases hr

theorem ready?_source (h : m.ready? = some d) : d.source = m.source := by
  obtain ⟨v, p, rfl⟩ := ready?_eq_some h
  rfl

theorem perform_source (hb : op.isBatch = false) (hs : op ≠ .step) :
    (m.perform op).2.source = m.source := by
  rcases op.step_or_reset_or_other with rfl | rfl | rfl | ⟨_, hr, hc⟩
  · exact absurd rfl hs
  · rfl
  · rfl
  · obtain ⟨_, _, _, _, _, _, _, h, _⟩ := perform_host (m := m) hb hs hr hc
    rw [h]

/-- Every random instruction finds the source where the one before it has left it. -/
theorem source_of_executed (hops : ∀ op ∈ ops, op.isBatch = false) :
    (m.after ops).source = m.source.rest ((m.executed ops).filter draws).length ∧
      ∀ j d, ((m.executed ops).filter draws)[j]? = some d → d.source = m.source.rest j := by
  induction ops generalizing m with
  | nil => exact ⟨rfl, fun j d h => nomatch h⟩
  | cons op ops ih =>
    obtain ⟨hlast, hall⟩ := ih (m := (m.perform op).2) fun o ho => hops o (by simp [ho])
    rcases m.executed_cases op ops with ⟨d, rfl, hd, he⟩ | ⟨hstuck, he⟩
    · have hsource : d.cycle.source = m.source.rest d.drawCount := by
        rw [cycle_source, ready?_source hd]
      rw [perform_step, step_of_ready hd, hsource] at hlast hall
      rw [after_cons, perform_step, step_of_ready hd, he, List.filter_cons]
      cases hdraw : d.draws with
      | false =>
        rw [drawCount, hdraw] at hlast hall
        exact ⟨hlast, hall⟩
      | true =>
        rw [drawCount, hdraw] at hlast hall
        refine ⟨hlast, fun j e hj => ?_⟩
        cases j with
        | zero =>
          cases hj
          exact ready?_source hd
        | succ j => exact hall j e hj
    · have hsource : (m.perform op).2.source = m.source := by
        by_cases hs : op = .step
        · rw [hs, perform_step, step_of_not_ready (hstuck hs)]
        · exact perform_source (hops op (by simp)) hs
      rw [hsource] at hlast hall
      rw [he]
      exact ⟨hlast, hall⟩

theorem source_of_executions (m : Machine) (ops : List Operation) :
    (m.after ops).source = m.source.rest ((m.executions ops).filter draws).length ∧
      ∀ j d, ((m.executions ops).filter draws)[j]? = some d → d.source = m.source.rest j := by
  rw [← executed_singles, ← after_singles]
  exact source_of_executed fun op hop => isBatch_of_mem_singles hop

theorem cycle_register_of_random {x : Fin 16} {mask : UInt8}
    (h : Instruction.decode m.fetch = some (.random x mask)) :
    m.cycle.register x = mask &&& m.source.draw.1 := by
  rw [cycle_of_instruction h]
  simp [execute, random, countStep, register, setRegister, setSource, setPc, UInt8.and_comm]

/-! Another source in its place. -/

theorem onDevices_setSource (t : Source) : OnDevices fun m => m.setSource t where
  v _ := rfl
  pc _ := rfl
  stack _ := rfl
  config _ := rfl
  fetch _ := rfl
  setRegister _ _ _ := rfl
  setPc _ _ := rfl
  setStack _ _ := rfl
  halt _ _ := rfl
  countStep _ := rfl

theorem execute_setSource (t : Source) (hi : i.isRandom = false) (opcode address : UInt16) :
    (m.setSource t).execute opcode address i = (m.execute opcode address i).setSource t := by
  have hbranch := (onDevices_setSource t).execute m (i := i)
  have hholds : ∀ condition, i = .skip condition →
      (m.setSource t).holds condition = m.holds condition := fun condition _ =>
    holds_map (φ := fun d => d.setSource t) rfl rfl condition
  cases i with
  | ret | call target | skip condition | alu op x y => exact hbranch rfl hholds opcode address
  | random => cases hi
  | _ => rfl

theorem random_setSource (h : t.draw.1 = m.source.draw.1) (x : Fin 16) (mask : UInt8) :
    (m.setSource t).random x mask = (m.random x mask).setSource t.draw.2 := by
  have hvalue : (m.setSource t).source.draw.1 = m.source.draw.1 := h
  simp only [random, hvalue]
  rfl

/-- A source with the same next value makes no difference to an instruction. -/
theorem cycle_setSource (h : m.draws = true → t.draw.1 = m.source.draw.1) :
    (m.setSource t).cycle = m.cycle.setSource (t.rest m.drawCount) := by
  cases hdraw : m.draws with
  | false =>
    rw [drawCount, hdraw]
    refine (onDevices_setSource t).cycle m fun i hi => ?_
    rw [draws_of_instruction hi] at hdraw
    exact execute_setSource t hdraw m.fetch m.pc
  | true =>
    obtain ⟨x, mask, hi⟩ := draws_iff.mp hdraw
    have hi' : Instruction.decode (m.setSource t).fetch = some (.random x mask) := hi
    have hrandom := random_setSource (m := m.setPc (m.pc + 2)) (h hdraw) x mask
    rw [cycle_of_instruction hi, cycle_of_instruction hi', drawCount, hdraw]
    exact congrArg countStep hrandom

theorem ready?_setSource (m : Machine) (t : Source) :
    (m.setSource t).ready? = m.ready?.map fun d => d.setSource t :=
  ready?_map (φ := fun d => d.setSource t) rfl rfl fun _ _ => rfl

theorem reset_setSource (m : Machine) (t : Source) :
    (m.setSource t).reset = m.reset.setSource t := by
  simp only [reset, resetCpu, setSource]

theorem perform_setSource (hb : op.isBatch = false) (hs : op ≠ .step) (t : Source) :
    (m.setSource t).perform op = ((m.perform op).1, (m.perform op).2.setSource t) := by
  cases op with
  | step => exact absurd rfl hs
  | run | runFrame | runPaced => cases hb
  | reset => simp only [perform, reset_setSource]
  | load program =>
    exact perform_load_map (φ := fun d => d.setSource t) rfl (fun _ => rfl) program
  | setKey index down => exact perform_setKey_map (φ := fun d => d.setSource t) rfl fun _ => rfl
  | setNamedKey layout name down =>
    exact perform_setNamedKey_map (φ := fun d => d.setSource t) rfl (fun _ => rfl) layout name down
  | _ => rfl

/-- The machine `n` is `m` with `t` for `s`, as many values further on. Of `total` values, `k` are
still to come. -/
def Exchanged (s t : Source) (total k : Nat) (m n : Machine) : Prop :=
  ∃ taken, taken + k = total ∧ m.source = s.rest taken ∧ n = m.setSource (t.rest taken)

theorem spends_exchanged (h : ∀ j < total, t.value j = s.value j) :
    Spends drawCount (Exchanged s t total) where
  cycle := by
    rintro k m _ d hd ⟨taken, hk, hs, rfl⟩
    have hready : (m.setSource (t.rest taken)).ready? = some (d.setSource (t.rest taken)) := by
      rw [ready?_setSource, hd]
      rfl
    have hvalue : d.draws = true → (t.rest taken).draw.1 = d.source.draw.1 := by
      intro hdraw
      rw [drawCount, hdraw] at hk
      rw [ready?_source hd, hs]
      exact h taken (by simp at hk; omega)
    rw [step_of_ready hd, step_of_ready hready]
    refine ⟨taken + d.drawCount, by omega, ?_, ?_⟩
    · rw [cycle_source, ready?_source hd, hs, Source.rest_add]
    · rw [cycle_setSource hvalue, Source.rest_add]
  tick := by
    rintro k m _ ⟨taken, hk, hs, rfl⟩
    exact ⟨taken, hk, hs, rfl⟩
  faults := by
    rintro k m _ ⟨taken, hk, hs, rfl⟩
    rfl
  blocked := by
    rintro k m _ ⟨taken, hk, hs, rfl⟩
    rfl

theorem perform_exchanged (hb : op.isBatch = false) (hs : op ≠ .step)
    (hr : Exchanged s t total k m n) :
    SameAnswer (Exchanged s t total k) (m.perform op) (n.perform op) := by
  obtain ⟨taken, hk, hsource, rfl⟩ := hr
  rw [perform_setSource hb hs]
  exact ⟨rfl, taken, hk, (perform_source hb hs).trans hsource, rfl⟩

/-- Sources that begin with the same values, as many as the run takes, give the same run. -/
theorem performAll_setSource
    (h : ∀ j < ((m.executions ops).filter draws).length, t.value j = m.source.value j) :
    (m.setSource t).performAll ops = ((m.performAll ops).1,
      (m.after ops).setSource (t.rest ((m.executions ops).filter draws).length)) := by
  have hstart : Exchanged m.source t ((m.executions ops).filter draws).length
      (price drawCount (m.executions ops) + 0) m (m.setSource t) :=
    ⟨0, by rw [price_drawCount, Nat.add_zero, Nat.zero_add], rfl, rfl⟩
  obtain ⟨hreplies, taken, hk, -, hlast⟩ :=
    (spends_exchanged h).performAll (fun hb hs _ => perform_exchanged hb hs) hstart
  rw [Nat.add_zero] at hk
  rw [hk] at hlast
  exact Prod.ext hreplies hlast

/-- Each random instruction takes the next value of the source, whatever its mask and whatever the
host does in between, and nothing else takes a value or gives one back. A run tells sources apart
only by the values that it takes. With another source that begins with them the replies are the same
and so is the machine, that source as many values further on. -/
theorem chance_enters_draw_by_draw (m : Machine) (ops : List Operation) :
    let drawing := (m.executions ops).filter draws
    (m.after ops).source = m.source.rest drawing.length ∧
    (∀ j d, drawing[j]? = some d → ∃ x mask, Instruction.decode d.fetch = some (.random x mask) ∧
      d.source = m.source.rest j ∧ d.cycle.register x = mask &&& m.source.value j) ∧
    (∀ k t, drawing.length ≤ k → (∀ j < k, t.value j = m.source.value j) →
      (m.setSource t).performAll ops =
        ((m.performAll ops).1, (m.after ops).setSource (t.rest drawing.length))) ∧
    (drawing = [] → ∀ t,
      (m.setSource t).performAll ops = ((m.performAll ops).1, (m.after ops).setSource t)) := by
  intro drawing
  obtain ⟨hsource, hdrawing⟩ := m.source_of_executions ops
  refine ⟨hsource, fun j d hj => ?_, fun k t hk h => ?_, fun hnone t => ?_⟩
  · have hmem : d ∈ drawing := List.mem_of_getElem? hj
    obtain ⟨x, mask, hi⟩ := draws_iff.mp (List.mem_filter.mp hmem).2
    have hd : d.source = m.source.rest j := hdrawing j d hj
    refine ⟨x, mask, hi, hd, ?_⟩
    rw [cycle_register_of_random hi, hd]
    rfl
  · exact performAll_setSource fun j hj => h j (Nat.lt_of_lt_of_le hj hk)
  · have hagree : ∀ j < drawing.length, t.value j = m.source.value j := by
      simp [hnone]
    have hrun : (m.setSource t).performAll ops =
        ((m.performAll ops).1, (m.after ops).setSource (t.rest drawing.length)) :=
      performAll_setSource hagree
    rw [hnone] at hrun
    exact hrun

/-- Two random bytes, one of them masked away, and a third one after a reset. -/
def drawThrice : List Operation :=
  [.load [0xC1, 0xFF, 0xC2, 0x00], .run 2, .reset, .load [0xC3, 0x0F], .step]

set_option maxRecDepth 100000 in
/-- The third instruction gets the third value. What the source holds behind it does not matter, and
to a program that draws nothing the source does not matter at all. -/
theorem third_draw_gets_third_value :
    let m := initial {} (.listed [7, 9, 0x2C] 0)
    let t := Source.listed [7, 9, 0x2C, 250] 0
    let drawing := (m.executions drawThrice).filter draws
    let idle : List Operation := [.load [0x61, 0x05], .run 1]
    (drawing.length = 3 ∧ (m.after drawThrice).source = m.source.rest 3) ∧
      (∃ d, drawing[2]? = some d ∧ ∃ x mask, Instruction.decode d.fetch = some (.random x mask) ∧
        d.source = m.source.rest 2 ∧ d.cycle.register x = mask &&& m.source.value 2) ∧
      (m.after drawThrice).register 3 = 0x0C ∧
      ((∀ j < 3, t.value j = m.source.value j) ∧ t.value 3 ≠ m.source.value 3) ∧
      (m.setSource t).performAll drawThrice =
        ((m.performAll drawThrice).1, (m.after drawThrice).setSource (t.rest 3)) ∧
      (m.executions idle).filter draws = [] ∧
      (m.setSource t).performAll idle = ((m.performAll idle).1, (m.after idle).setSource t) := by
  intro m t drawing idle
  obtain ⟨hsource, hdrawing, hrun, -⟩ := chance_enters_draw_by_draw m drawThrice
  obtain ⟨-, -, -, hidle⟩ := chance_enters_draw_by_draw m idle
  have hlength : drawing.length = 3 := by decide +kernel
  have hagree : ∀ j < 3, t.value j = m.source.value j := by decide +kernel
  have hnone : (m.executions idle).filter draws = [] := by decide +kernel
  have hthird : 2 < drawing.length := by omega
  refine ⟨⟨hlength, by rw [hsource, hlength]⟩, ⟨drawing[2], List.getElem?_eq_getElem hthird, ?_⟩,
    by decide +kernel, ⟨hagree, by decide +kernel⟩, ?_, hnone, hidle hnone t⟩
  · exact hdrawing 2 drawing[2] (List.getElem?_eq_getElem hthird)
  · have hsame := hrun 3 t (Nat.le_of_eq hlength) hagree
    rw [hlength] at hsame
    exact hsame

end Machine

end Chip8
