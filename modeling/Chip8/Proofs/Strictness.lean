import Chip8.Proofs.Commuting
import Chip8.Proofs.Executions
import Chip8.Proofs.Halting

/-! Strict machines beside lenient ones. They go together until the strict one reports a misuse of
the stack. -/
namespace Chip8

/-- Keys given by number exist. A lenient machine would let others pass. -/
def Operation.onKeypad : Operation → Bool
  | .setKey index _ => 0 ≤ index ∧ index < 16
  | _ => true

theorem Operation.onKeypad_of_mem_attempts {op o : Operation} (ho : o.onKeypad = true)
    (h : op ∈ o.attempts) : op.onKeypad = true := by
  rcases mem_attempts h with ⟨_, rfl⟩ | rfl | rfl
  · exact ho
  · rfl
  · rfl

theorem Operation.isBatch_of_mem_attempts {op o : Operation} (h : op ∈ o.attempts) :
    op.isBatch = false := by
  rcases mem_attempts h with ⟨hb, rfl⟩ | rfl | rfl
  · exact hb
  · rfl
  · rfl

theorem CallStack.misuse?_ne_unrecognized (s : CallStack) (i : Instruction) :
    s.misuse? i ≠ some .unrecognizedOpcode := by
  cases i with
  | call target =>
    rw [misuse?_call]
    split
    · nofun
    · nofun
  | ret =>
    rw [misuse?_ret]
    split
    · nofun
    · nofun
  | _ => nofun

namespace Machine

variable {m : Machine} {c : Config} {i : Instruction} {kind : FaultKind} {op : Operation}
  {ops : List Operation}

def setConfig (m : Machine) (c : Config) : Machine := { m with config := c }

/-- No misuse of the stack is on record. -/
def Sound (m : Machine) : Prop := ∀ f ∈ m.fault, f.kind = .unrecognizedOpcode

theorem misuse?_ne_unrecognized (m : Machine) : m.misuse? ≠ some .unrecognizedOpcode := by
  intro h
  obtain ⟨i, _, hi⟩ := Option.bind_eq_some_iff.mp h
  exact m.stack.misuse?_ne_unrecognized i hi

theorem faultKind?_of_misuse (hs : m.config.strict = true) (h : m.misuse? = some kind) :
    m.faultKind? = some kind := by
  obtain ⟨i, hi, hmisuse⟩ := Option.bind_eq_some_iff.mp h
  rw [faultKind?_of_instruction hi, if_pos hs]
  exact hmisuse

/-- A fault that is no misuse of the stack is a word that is no instruction. -/
theorem faultKind?_of_no_misuse (h : m.config.strict = true → m.misuse? = none)
    (hk : m.faultKind? = some kind) : kind = .unrecognizedOpcode := by
  cases hi : Instruction.decode m.fetch with
  | none =>
    rw [faultKind?_of_no_instruction hi] at hk
    exact (Option.some.inj hk).symm
  | some i =>
    rw [faultKind?_of_instruction hi] at hk
    obtain ⟨hs, hmisuse⟩ := Option.ite_none_right_eq_some.mp hk
    have hm : m.misuse? = some kind := by rw [misuse?, hi]; exact hmisuse
    cases (h hs).symm.trans hm

theorem sound_cycle (hf : m.fault = none) (h : m.config.strict = true → m.misuse? = none) :
    m.cycle.Sound := by
  intro f hfault
  exact faultKind?_of_no_misuse h (cycle_of_fault hf hfault).1

theorem misuse?_of_sound (hf : m.fault = none) (hs : m.config.strict = true)
    (h : m.cycle.Sound) : m.misuse? = none := by
  cases hm : m.misuse? with
  | none => rfl
  | some kind =>
    have hk : kind = .unrecognizedOpcode := h ⟨kind, m.fetch, m.pc⟩ (by
      rw [cycle_fault hf, faultKind?_of_misuse hs hm]
      rfl)
    subst hk
    exact absurd hm m.misuse?_ne_unrecognized

/-! Side by side. -/

theorem execute_setConfig (hc : c.strict = false)
    (h : m.config.strict = true → m.stack.misuse? i = none) (opcode address : UInt16) :
    (m.setConfig c).execute opcode address i = (m.execute opcode address i).setConfig c := by
  have hlenient : ¬ (m.setConfig c).config.strict = true := by simp [setConfig, hc]
  cases hm : m.stack.misuse? i with
  | some kind =>
    have hm' : (m.setConfig c).stack.misuse? i = some kind := hm
    have hs : ¬ m.config.strict = true := fun hs => by cases (h hs).symm.trans hm
    rw [execute_of_misuse hm, execute_of_misuse hm', if_neg hs, if_neg hlenient]
    cases i <;> rfl
  | none =>
    cases i with
    | call target =>
      obtain ⟨pushed, hp⟩ := push?_of_no_misuse hm
      have hp' : (m.setConfig c).stack.push? (m.setConfig c).pc = some pushed := hp
      simp only [execute, hp, hp']
      rfl
    | ret =>
      obtain ⟨popped, hp⟩ := pop?_of_no_misuse hm
      have hp' : (m.setConfig c).stack.pop? = some popped := hp
      simp only [execute, hp, hp']
      rfl
    | skip condition =>
      have hholds : (m.setConfig c).holds condition = m.holds condition :=
        holds_map (φ := fun d => d.setConfig c) rfl rfl condition
      simp only [execute, hholds]
      split
      · rfl
      · rfl
    | alu op x y =>
      have hx : ∀ z, (m.setConfig c).register z = m.register z := fun _ => rfl
      simp only [execute, alu, hx]
      cases op.flag? (m.register x) (m.register y) with
      | none => rfl
      | some b => rfl
    | _ => rfl

theorem cycle_setConfig (hc : c.strict = false) (h : m.config.strict = true → m.misuse? = none) :
    (m.setConfig c).cycle = m.cycle.setConfig c := by
  have hfetch : (m.setConfig c).fetch = m.fetch := rfl
  cases hi : Instruction.decode m.fetch with
  | none =>
    rw [cycle_of_no_instruction hi, cycle_of_no_instruction (hfetch ▸ hi)]
    rfl
  | some i =>
    have hmisuse : m.config.strict = true → m.stack.misuse? i = none := fun hs => by
      rw [← h hs, misuse?, hi]
      rfl
    have hx := execute_setConfig (m := m.setPc (m.pc + 2)) hc hmisuse m.fetch m.pc
    rw [cycle_of_instruction hi, cycle_of_instruction (hfetch ▸ hi)]
    exact congrArg countStep hx

theorem ready?_setConfig (m : Machine) (c : Config) :
    (m.setConfig c).ready? = m.ready?.map fun d => d.setConfig c :=
  ready?_map (φ := fun d => d.setConfig c) rfl rfl fun _ _ => rfl

theorem step_setConfig (hc : c.strict = false) (h : m.step.2.Sound) :
    (m.setConfig c).step = (m.step.1, m.step.2.setConfig c) := by
  refine step_map (φ := fun d => d.setConfig c) (m.ready?_setConfig c) fun d hd => ?_
  rw [step_of_ready hd] at h
  exact cycle_setConfig hc fun hstrict => misuse?_of_sound (ready?_fault hd) hstrict h

theorem sound_before_step (m : Machine) (h : m.step.2.Sound) : m.Sound := by
  rcases m.step_cases with ⟨d, hd, _⟩ | ⟨_, hs⟩
  · intro f hf
    cases (ready?_cases hd).1.symm.trans hf
  · rw [hs] at h
    exact h

theorem commutes_setConfig (hc : c.strict = false) :
    Commutes (fun m => m.setConfig c) Sound where
  step _ h := step_setConfig hc h
  tick _ := rfl
  faults _ := rfl
  blocked _ := rfl
  before_step := sound_before_step
  before_tick _ h := h

theorem initial_setConfig (config c : Config) (source : Random.Source) :
    (initial config source).setConfig c = initial c source := by
  simp only [initial, setConfig]

theorem reset_setConfig (m : Machine) (c : Config) :
    (m.setConfig c).reset = m.reset.setConfig c := by
  simp only [reset, resetCpu, setConfig]

/-- What the host does itself is the same for both. -/
theorem perform_setConfig_of_host (hs : op ≠ .step) (hb : op.isBatch = false)
    (hk : op.onKeypad = true) :
    (m.setConfig c).perform op = ((m.perform op).1, (m.perform op).2.setConfig c) := by
  cases op with
  | step => exact absurd rfl hs
  | run | runFrame | runPaced => cases hb
  | load program =>
    exact perform_load_map (φ := fun d => d.setConfig c) rfl (fun _ => rfl) program
  | setKey index down =>
    refine perform_setKey_map (φ := fun d => d.setConfig c) ?_ fun _ => rfl
    have hindex : 0 ≤ index ∧ index < 16 := of_decide_eq_true hk
    have hkey : Keypad.key? index = some ⟨index.toNat, by omega⟩ := dif_pos hindex
    simp only [Keypad.setKey, hkey]
    rfl
  | setNamedKey layout name down =>
    exact perform_setNamedKey_map (φ := fun d => d.setConfig c) rfl (fun _ => rfl) layout name down
  | reset => simp only [perform, reset_setConfig]
  | _ => rfl

theorem perform_setConfig (hc : c.strict = false) (hk : op.onKeypad = true)
    (h : (m.perform op).2.Sound) :
    (m.setConfig c).perform op = ((m.perform op).1, (m.perform op).2.setConfig c) := by
  by_cases hop : op = .step ∨ op = .tick ∨ op.isBatch = true
  · exact (commutes_setConfig hc).perform hop h
  · rw [not_or, not_or] at hop
    exact perform_setConfig_of_host hop.1 (Bool.eq_false_of_not_eq_true hop.2.2) hk

theorem performAll_setConfig (hc : c.strict = false) (hk : ∀ op ∈ ops, op.onKeypad = true)
    (h : ∀ done, done <+: ops → (m.after done).Sound) :
    (m.setConfig c).performAll ops = ((m.performAll ops).1, (m.performAll ops).2.setConfig c) := by
  induction ops generalizing m with
  | nil => rfl
  | cons op ops ih =>
    have hfirst : (m.perform op).2.Sound := h [op] ⟨ops, rfl⟩
    have hrest : ∀ done, done <+: ops → ((m.perform op).2.after done).Sound := fun done hd =>
      h (op :: done) (List.cons_prefix_cons.mpr ⟨rfl, hd⟩)
    simp only [performAll, perform_setConfig hc (hk op (by simp)) hfirst,
      ih (fun o ho => hk o (by simp [ho])) hrest]

/-! Instruction by instruction. -/

/-- The report that a misuse of the stack is worth. -/
def misuseFault? (m : Machine) : Option Fault := m.misuse?.map fun kind => ⟨kind, m.fetch, m.pc⟩

/-- The misuse of the stack that executing an instruction puts on record. -/
def reported? (m : Machine) : Option Fault :=
  m.cycle.fault.filter fun f => f.kind ≠ .unrecognizedOpcode

theorem misuseFault?_eq_none : m.misuseFault? = none ↔ m.misuse? = none := Option.map_eq_none_iff

theorem reported?_of_sound (h : m.cycle.Sound) : m.reported? = none := by
  rw [reported?, Option.filter_eq_none_iff]
  intro f hf
  simp [h f hf]

theorem reported?_of_lenient (hf : m.fault = none) (hs : m.config.strict = false) :
    m.reported? = none :=
  reported?_of_sound (sound_cycle hf fun h => by cases hs.symm.trans h)

/-- A strict machine reports every misuse. -/
theorem reported?_of_strict (hf : m.fault = none) (hs : m.config.strict = true) :
    m.reported? = m.misuseFault? := by
  cases hm : m.misuse? with
  | none =>
    rw [misuseFault?_eq_none.mpr hm]
    exact reported?_of_sound (sound_cycle hf fun _ => hm)
  | some kind =>
    have hk : kind ≠ .unrecognizedOpcode := fun hk => m.misuse?_ne_unrecognized (hk ▸ hm)
    rw [reported?, cycle_fault hf, faultKind?_of_misuse hs hm, misuseFault?, hm]
    exact Option.filter_some_pos (by simpa using hk)

/-- A lenient machine drops the return address and jumps, or has none and goes on. -/
theorem cycle_of_misuse (hs : m.config.strict = false) (hi : Instruction.decode m.fetch = some i)
    (hm : m.stack.misuse? i = some kind) :
    m.cycle = (((m.setPc (m.pc + 2)).proceed i).countStep) := by
  have hx := execute_of_misuse (m := m.setPc (m.pc + 2)) hm m.fetch m.pc
  rw [if_neg (show ¬ (m.setPc (m.pc + 2)).config.strict = true from fun h => by
    cases hs.symm.trans h)] at hx
  rw [cycle_of_instruction hi, hx]

theorem lenient_call {target : UInt16} (hs : m.config.strict = false)
    (hi : Instruction.decode m.fetch = some (.call target)) (hfull : m.stack.live.length = 16) :
    m.misuseFault? = some ⟨.stackOverflow, m.fetch, m.pc⟩ ∧
      m.cycle = { m with pc := target, steps := m.steps + 1 } := by
  refine ⟨?_, cycle_of_misuse hs hi (if_pos hfull)⟩
  rw [misuseFault?, misuse?_eq_some_iff.mpr (.inl ⟨rfl, ⟨target, hi⟩, hfull⟩)]
  rfl

theorem lenient_return (hs : m.config.strict = false) (hi : Instruction.decode m.fetch = some .ret)
    (hempty : m.stack.live = []) :
    m.misuseFault? = some ⟨.stackUnderflow, m.fetch, m.pc⟩ ∧
      m.cycle = { m with pc := m.pc + 2, steps := m.steps + 1 } := by
  refine ⟨?_, cycle_of_misuse hs hi (if_pos hempty)⟩
  rw [misuseFault?, misuse?_eq_some_iff.mpr (.inr ⟨rfl, hi, hempty⟩)]
  rfl

theorem call_or_return_of_misuse (h : m.misuseFault? ≠ none) :
    ((∃ target, Instruction.decode m.fetch = some (.call target)) ∧ m.stack.live.length = 16) ∨
      (Instruction.decode m.fetch = some .ret ∧ m.stack.live = []) := by
  obtain ⟨kind, hkind⟩ := Option.ne_none_iff_exists'.mp (mt misuseFault?_eq_none.mpr h)
  exact (misuse?_eq_some_iff.mp hkind).imp And.right And.right

/-- Two runs that execute the same up to and with the first misuse of the stack, and may part
there. -/
def Lockstep (c : Config) : List Machine → List Machine → Prop
  | [], [] => True
  | s :: ss, l :: ls => l = s.setConfig c ∧ (s.misuse? = none → Lockstep c ss ls)
  | _, _ => False

section Lockstep

variable {ss ls ss' ls' : List Machine}

theorem Lockstep.append (h : Lockstep c ss ls)
    (hrest : (∀ s ∈ ss, s.misuse? = none) → Lockstep c ss' ls') :
    Lockstep c (ss ++ ss') (ls ++ ls') := by
  induction ss generalizing ls with
  | nil =>
    cases ls with
    | nil => exact hrest (by simp)
    | cons l ls => cases h
  | cons s ss ih =>
    cases ls with
    | nil => cases h
    | cons l ls =>
      refine ⟨h.1, fun hs => ih (h.2 hs) fun hss => hrest ?_⟩
      exact List.forall_mem_cons.mpr ⟨hs, hss⟩

/-- The first report of the one run is the first misuse of the other, with the same instructions
before it. -/
theorem Lockstep.first_report (h : Lockstep c ss ls) (hr : ∀ s ∈ ss, s.reported? = s.misuseFault?) :
    ((ss.takeWhile fun s => s.reported?.isNone).map fun s => s.setConfig c) =
        ls.takeWhile (fun l => l.misuseFault?.isNone) ∧
      ((ss.find? fun s => s.reported?.isSome).map fun s => (s.setConfig c, s.reported?)) =
        (ls.find? fun l => l.misuseFault?.isSome).map fun l => (l, l.misuseFault?) := by
  induction ss generalizing ls with
  | nil =>
    cases ls with
    | nil => exact ⟨rfl, rfl⟩
    | cons l ls => cases h
  | cons s ss ih =>
    cases ls with
    | nil => cases h
    | cons l ls =>
      obtain ⟨rfl, hrest⟩ := h
      have hreport := hr s (by simp)
      have hsame : (s.setConfig c).misuseFault? = s.misuseFault? := rfl
      cases hm : s.misuseFault? with
      | none =>
        have htail := ih (hrest (misuseFault?_eq_none.mp hm)) fun t ht => hr t (by simp [ht])
        simpa [hreport, hsame, hm] using htail
      | some f => simp [hreport, hsame, hm]

end Lockstep

theorem lockstep_executed (hc : c.strict = false) (hb : ∀ op ∈ ops, op.isBatch = false)
    (hk : ∀ op ∈ ops, op.onKeypad = true) (m : Machine) :
    Lockstep c (m.executed ops) ((m.setConfig c).executed ops) := by
  induction ops generalizing m with
  | nil => trivial
  | cons op ops ih =>
    have htail := ih (fun o ho => hb o (by simp [ho])) (fun o ho => hk o (by simp [ho]))
    by_cases hs : op = .step
    · subst hs
      have hready := m.ready?_setConfig c
      cases hd : m.ready? with
      | none =>
        rw [hd] at hready
        rw [executed_of_not_ready hd, executed_of_not_ready hready]
        exact htail m
      | some d =>
        rw [hd] at hready
        rw [executed_of_ready hd, executed_of_ready hready]
        refine ⟨rfl, fun hm => ?_⟩
        rw [cycle_setConfig hc fun _ => hm]
        exact htail d.cycle
    · rw [executed_of_ne_step hs, executed_of_ne_step hs,
        perform_setConfig_of_host hs (hb op (by simp)) (hk op (by simp))]
      exact htail (m.perform op).2

theorem sound_perform_of_host (hs : op ≠ .step) (hb : op.isBatch = false) (hm : m.Sound) :
    (m.perform op).2.Sound := by
  rcases op.step_or_reset_or_other with h | rfl | rfl | ⟨-, hr, hc⟩
  · exact absurd h hs
  · exact nofun
  · exact nofun
  · rw [Sound, perform_fault hb hs hr hc]
    exact hm

theorem sound_after_of_no_misuse (hb : ∀ op ∈ ops, op.isBatch = false) (hm : m.Sound)
    (h : ∀ d ∈ m.executed ops, d.misuse? = none) : (m.after ops).Sound := by
  induction ops generalizing m with
  | nil => exact hm
  | cons op ops ih =>
    have hrest : ∀ o ∈ ops, o.isBatch = false := fun o ho => hb o (by simp [ho])
    by_cases hs : op = .step
    · subst hs
      rw [after_cons, perform_step]
      cases hd : m.ready? with
      | none =>
        rw [executed_of_not_ready hd] at h
        rw [step_of_not_ready hd]
        exact ih hrest hm h
      | some d =>
        rw [executed_of_ready hd] at h
        rw [step_of_ready hd]
        have hcycle : d.cycle.Sound := sound_cycle (ready?_fault hd) fun _ => h d (by simp)
        exact ih hrest hcycle fun e he => h e (by simp [he])
    · rw [executed_of_ne_step hs] at h
      exact ih hrest (sound_perform_of_host hs (hb op (by simp)) hm) h

theorem lockstep_executions (hc : c.strict = false) (hk : ∀ op ∈ ops, op.onKeypad = true)
    (hm : m.Sound) : Lockstep c (m.executions ops) ((m.setConfig c).executions ops) := by
  induction ops generalizing m with
  | nil => trivial
  | cons op ops ih =>
    have hop := hk op (by simp)
    rw [executions_cons, executions_cons, executed_unrolled, executed_unrolled]
    refine (lockstep_executed hc (fun _ => Operation.isBatch_of_mem_attempts)
      (fun _ => Operation.onKeypad_of_mem_attempts hop) m).append fun hgood => ?_
    -- A batch whose instructions misuse nothing ends in a sound machine, so both go on together.
    have hsound : (m.perform op).2.Sound := by
      rw [← after_unrolled]
      apply sound_after_of_no_misuse (fun _ => isBatch_of_mem_unrolled) hm
      rw [executed_unrolled]
      exact hgood
    rw [perform_setConfig hc hop hsound]
    exact ih (fun o ho => hk o (by simp [ho])) hsound

/-- A lenient machine never records a misuse of its stack. -/
theorem sound_after_of_lenient (hs : m.config.strict = false) (hm : m.Sound)
    (ops : List Operation) : (m.after ops).Sound := by
  suffices hboth : (m.after ops).config.strict = false ∧ (m.after ops).Sound from hboth.2
  refine after_invariant (P := fun n => n.config.strict = false ∧ n.Sound) (Q := fun _ => True) ?_
    trivial trivial (fun _ _ => trivial) ⟨hs, hm⟩
  rintro n op hb _ ⟨hn, hsound⟩
  refine ⟨by rw [perform_config]; exact hn, ?_⟩
  by_cases hop : op = .step
  · subst hop
    rw [perform_step]
    rcases n.step_cases with ⟨d, hd, hstep⟩ | ⟨_, hstep⟩
    · rw [hstep]
      refine sound_cycle (ready?_fault hd) fun hstrict => ?_
      obtain ⟨v, p, rfl⟩ := ready?_eq_some hd
      cases hn.symm.trans hstrict
    · rw [hstep]
      exact hsound
  · exact sound_perform_of_host hop hb hsound

/-- A strict machine and a lenient one with the same random bytes come to the same under every host
that uses keys that exist, until the strict one reports a misuse of the stack. It does so at the
first call without room and the first return from no call that the lenient one executes. That one
jumps, or goes on, and never has such a fault on record. -/
theorem strict_only_adds_reports (seed seed' : Option Int) (source : Random.Source)
    (ops : List Operation) (hk : ∀ op ∈ ops, op.onKeypad = true) :
    let c : Config := ⟨seed', false⟩
    let strict := initial ⟨seed, true⟩ source
    let lenient := initial c source
    ((∀ done, done <+: ops → (strict.after done).Sound) →
      lenient.after ops = (strict.after ops).setConfig c ∧
        (lenient.performAll ops).1 = (strict.performAll ops).1) ∧
    ((((strict.executions ops).takeWhile fun s => s.reported?.isNone).map fun s => s.setConfig c) =
        (lenient.executions ops).takeWhile (fun l => l.misuseFault?.isNone) ∧
      (((strict.executions ops).find? fun s => s.reported?.isSome).map fun s =>
          (s.setConfig c, s.reported?)) =
        ((lenient.executions ops).find? fun l => l.misuseFault?.isSome).map fun l =>
          (l, l.misuseFault?)) ∧
    (∀ l ∈ lenient.executions ops,
      (∀ target, Instruction.decode l.fetch = some (.call target) → l.stack.live.length = 16 →
        l.misuseFault? = some ⟨.stackOverflow, l.fetch, l.pc⟩ ∧
          l.cycle = { l with pc := target, steps := l.steps + 1 }) ∧
      (Instruction.decode l.fetch = some .ret → l.stack.live = [] →
        l.misuseFault? = some ⟨.stackUnderflow, l.fetch, l.pc⟩ ∧
          l.cycle = { l with pc := l.pc + 2, steps := l.steps + 1 }) ∧
      (l.misuseFault? ≠ none →
        ((∃ target, Instruction.decode l.fetch = some (.call target)) ∧
            l.stack.live.length = 16) ∨
          (Instruction.decode l.fetch = some .ret ∧ l.stack.live = []))) ∧
    ∀ others, (lenient.after others).Sound ∧
      ∀ l ∈ lenient.executions others, l.reported? = none := by
  intro c strict lenient
  have hsame : lenient = strict.setConfig c :=
    (initial_setConfig ⟨seed, true⟩ c source).symm
  have hsound : strict.Sound ∧ lenient.Sound := ⟨fun _ => nofun, fun _ => nofun⟩
  have hstrict : ∀ s ∈ strict.executions ops, s.config.strict = true := fun s hs =>
    congrArg Config.strict (mem_executions hs).2
  have hlenient : ∀ others, ∀ l ∈ lenient.executions others, l.config.strict = false :=
    fun others l hl => congrArg Config.strict (mem_executions hl).2
  refine ⟨fun h => ?_, ?_, fun l hl => ?_, fun others => ⟨?_, fun l hl => ?_⟩⟩
  · rw [hsame, after, performAll_setConfig (c := c) rfl hk h]
    exact ⟨rfl, rfl⟩
  · rw [hsame]
    exact (lockstep_executions rfl hk hsound.1).first_report fun s hs =>
      reported?_of_strict (mem_executions hs).1 (hstrict s hs)
  · have hs := hlenient ops l hl
    exact ⟨fun target => lenient_call hs, lenient_return hs, call_or_return_of_misuse⟩
  · exact sound_after_of_lenient rfl hsound.2 others
  · exact reported?_of_lenient (mem_executions hl).1 (hlenient others l hl)

/-- A program that returns from no call in its second instruction. -/
def looseReturn (n : Int) : List Operation :=
  [.poke 0x200 0x65, .poke 0x201 0x07, .poke 0x202 0x00, .poke 0x203 0xEE, .setKey 3 true, .run n]

set_option maxRecDepth 100000 in
/-- The machines part at the return and not before. -/
theorem loose_return_is_reported :
    let strict := initial ⟨none, true⟩ (.listed [7] 0)
    let lenient := initial ⟨some 1, false⟩ (.listed [7] 0)
    let f : Fault := ⟨.stackUnderflow, 0x00EE, 0x202⟩
    ((∀ op ∈ looseReturn 1, op.onKeypad = true) ∧ (∀ op ∈ looseReturn 2, op.onKeypad = true)) ∧
      ((∀ done, done <+: looseReturn 1 → (strict.after done).Sound) ∧
        lenient.after (looseReturn 1) = (strict.after (looseReturn 1)).setConfig ⟨some 1, false⟩) ∧
      (((lenient.executions (looseReturn 2)).find? fun l => l.misuseFault?.isSome).map fun l =>
        l.misuseFault?) = some (some f) ∧
      (((strict.executions (looseReturn 2)).find? fun s => s.reported?.isSome).map fun s =>
        s.reported?) = some (some f) ∧
      (lenient.after (looseReturn 2)).Sound := by
  intro strict lenient f
  have hkeys : ∀ n, ∀ op ∈ looseReturn n, op.onKeypad = true := fun n op => by
    simp only [looseReturn, List.mem_cons, List.not_mem_nil, or_false]
    rintro (rfl | rfl | rfl | rfl | rfl | rfl) <;> rfl
  have hrunning : ∀ n < 7, (strict.after ((looseReturn 1).take n)).fault = none := by
    decide +kernel
  have hsound : ∀ done, done <+: looseReturn 1 → (strict.after done).Sound := by
    intro done hd f hf
    rw [List.prefix_iff_eq_take.mp hd] at hf
    cases (hrunning done.length (Nat.lt_succ_of_le hd.length_le)).symm.trans hf
  have hfirst : (((lenient.executions (looseReturn 2)).find? fun l =>
      l.misuseFault?.isSome).map fun l => l.misuseFault?) = some (some f) := by decide +kernel
  obtain ⟨hsame, -⟩ := strict_only_adds_reports none (some 1) (.listed [7] 0) _ (hkeys 1)
  obtain ⟨-, ⟨-, hparts⟩, -, hnever⟩ :=
    strict_only_adds_reports none (some 1) (.listed [7] 0) _ (hkeys 2)
  refine ⟨⟨hkeys 1, hkeys 2⟩, ⟨hsound, (hsame hsound).1⟩, hfirst, ?_, (hnever _).1⟩
  have hreport := congrArg (Option.map Prod.snd) hparts
  rw [Option.map_map, Option.map_map] at hreport
  exact hreport.trans hfirst

end Machine

end Chip8
