import Chip8.Proofs.Commuting
import Chip8.Proofs.Executions
import Chip8.Proofs.Flow
import Chip8.Summary

/-! Calls and returns. The stack is a list of at most sixteen addresses to its user, and a return
that belongs to a call undoes it. -/
namespace Chip8

/-- The calls that a program is in after an event. -/
def Event.calls (calls : List UInt16) : Event → List UInt16
  | .executed m => callsAfter (m.pc + 2) calls (Instruction.decode m.fetch)
  | .host .reset | .host .resetCpu => []
  | _ => calls

section Prefix

variable {calls known : List UInt16} {i : Option Instruction} {behind : UInt16}

/-- Only the last call can end. -/
theorem prefix_callsAfter (h : known <+: calls)
    (hl : known.length ≤ (callsAfter behind calls i).length) :
    known <+: callsAfter behind calls i := by
  unfold callsAfter at hl ⊢
  split
  · exact List.prefix_of_prefix_length_le h (List.dropLast_prefix calls) hl
  · split
    · exact h.trans (List.prefix_append calls [behind])
    · exact h
  · exact h

theorem ret_of_callsAfter_lt (h : (callsAfter behind calls i).length < calls.length) :
    i = some .ret := by
  unfold callsAfter at h
  split at h
  · rfl
  · split at h
    · rw [List.length_append] at h
      omega
    · omega
  · omega

end Prefix

namespace CallStack

variable {s t : CallStack}

theorem pop?_of_live_eq (h : s.live = t.live) : (s.pop? = none ∧ t.pop? = none) ∨
    ∃ a s' t', s.pop? = some (a, s') ∧ t.pop? = some (a, t') ∧ s'.live = t'.live := by
  cases hs : s.pop? with
  | none =>
    have hempty := pop?_eq_none_iff.mp hs
    exact .inl ⟨rfl, pop?_eq_none_iff.mpr (h.symm.trans hempty)⟩
  | some popped =>
    cases ht : t.pop? with
    | none =>
      have hempty := pop?_eq_none_iff.mpr (h.trans (pop?_eq_none_iff.mp ht))
      cases hs.symm.trans hempty
    | some popped' =>
      rw [live_pop? hs, live_pop? ht] at h
      obtain ⟨hrest, htop⟩ := List.append_inj' h rfl
      obtain ⟨a, s'⟩ := popped
      obtain ⟨b, t'⟩ := popped'
      obtain rfl : a = b := List.singleton_inj.mp htop
      exact .inr ⟨a, s', t', rfl, rfl, hrest⟩

theorem push?_of_live_eq (h : s.live = t.live) (a : UInt16) :
    (s.push? a = none ∧ t.push? a = none) ∨
      ∃ s' t', s.push? a = some s' ∧ t.push? a = some t' ∧ s'.live = t'.live := by
  cases hs : s.push? a with
  | none =>
    have hfull := push?_eq_none_iff.mp hs
    exact .inl ⟨rfl, push?_eq_none_iff.mpr (h ▸ hfull)⟩
  | some pushed =>
    cases ht : t.push? a with
    | none =>
      have hfull := push?_eq_none_iff.mp ht
      cases hs.symm.trans (push?_eq_none_iff.mpr (h.symm ▸ hfull))
    | some pushed' =>
      refine .inr ⟨pushed, pushed', rfl, rfl, ?_⟩
      rw [live_push? hs, live_push? ht, h]

end CallStack

namespace Machine

variable {m n d c r : Machine} {op : Operation} {ops : List Operation}

theorem ready?_stack (h : m.ready? = some d) : d.stack = m.stack := by
  obtain ⟨v, p, rfl⟩ := ready?_eq_some h
  rfl

/-- Only instructions and resets touch the stack. -/
theorem perform_stack (hb : op.isBatch = false) (hs : op = .step → m.ready? = none)
    (hr : op ≠ .reset) (hc : op ≠ .resetCpu) : (m.perform op).2.stack = m.stack := by
  by_cases h : op = .step
  · subst h
    rw [perform_step, step_of_not_ready (hs rfl)]
  · obtain ⟨_, _, _, _, _, _, _, h, _⟩ := perform_host (m := m) hb h hr hc
    rw [h]

theorem live_event (hb : op.isBatch = false) :
    (m.perform op).2.stack.live = (m.event op).calls m.stack.live := by
  cases hop : op with
  | step =>
    rcases m.step_cases with ⟨d, hd, hs⟩ | ⟨hd, hs⟩
    · rw [event_of_ready hd, perform_step, hs, cycle_live, ready?_stack hd]
      rfl
    · rw [event_of_not_ready hd, perform_step, hs]
      rfl
  | reset | resetCpu => rfl
  | _ =>
    rw [← hop, perform_stack hb (by simp [hop]) (by simp [hop]) (by simp [hop]), hop]
    rfl

/-- The events of a run tell which calls the program is in. -/
theorem live_after (m : Machine) (ops : List Operation) :
    (m.after ops).stack.live = (m.history ops).foldl Event.calls m.stack.live := by
  refine foldl_history (P := fun m calls => m.stack.live = calls) ?_ rfl ops
  rintro m _ op hb rfl
  exact live_event hb

/-! Calls that go on while others come and go. -/
section Segment

variable {es rest : List Machine} {known : List UInt16}

/-- Without resets, calls that do not end by their number have not ended. -/
theorem prefix_of_executed (hops : ∀ op ∈ ops, op.isBatch = false ∧ op ≠ .reset ∧ op ≠ .resetCpu)
    (hm : known.length ≤ m.stack.live.length → known <+: m.stack.live)
    (he : m.executed ops = es ++ rest) (hl : ∀ d ∈ es, known.length ≤ d.stack.live.length) :
    ∀ d ∈ es, known <+: d.stack.live := by
  induction ops generalizing m es with
  | nil =>
    obtain ⟨rfl, -⟩ := List.append_eq_nil_iff.mp he.symm
    intro d hd
    cases hd
  | cons op ops ih =>
    obtain ⟨hb, hr, hc⟩ := hops op (by simp)
    have htail : ∀ o ∈ ops, o.isBatch = false ∧ o ≠ .reset ∧ o ≠ .resetCpu :=
      fun o ho => hops o (by simp [ho])
    rcases m.executed_cases op ops with ⟨d, rfl, hready, hx⟩ | ⟨hs, hx⟩
    · cases es with
      | nil =>
        intro d hd
        cases hd
      | cons e es =>
        obtain ⟨rfl, hrest⟩ := List.cons.inj (hx.symm.trans he)
        obtain ⟨hfirst, hlater⟩ := List.forall_mem_cons.mp hl
        have hknown : known <+: d.stack.live := by
          rw [ready?_stack hready] at hfirst ⊢
          exact hm hfirst
        have hnext : known.length ≤ d.cycle.stack.live.length → known <+: d.cycle.stack.live := by
          rw [cycle_live]
          exact prefix_callsAfter hknown
        exact List.forall_mem_cons.mpr ⟨hknown, ih htail hnext hrest hlater⟩
    · rw [← perform_stack hb hs hr hc] at hm
      exact ih htail hm (hx.symm.trans he) hl

/-- Behind an executed instruction the run goes on from where it led. -/
theorem executed_split (h : m.executed ops = es ++ c :: rest) :
    ∃ todo, (∀ op ∈ todo, op ∈ ops) ∧ c.cycle.executed todo = rest := by
  induction ops generalizing m es with
  | nil => cases es <;> cases h
  | cons op ops ih =>
    have hlater : ∀ {n : Machine} {es : List Machine}, n.executed ops = es ++ c :: rest →
        ∃ todo, (∀ o ∈ todo, o ∈ op :: ops) ∧ c.cycle.executed todo = rest := by
      intro n es hn
      obtain ⟨todo, htodo, he⟩ := ih hn
      exact ⟨todo, fun o ho => List.mem_cons_of_mem op (htodo o ho), he⟩
    rcases m.executed_cases op ops with ⟨d, rfl, -, hx⟩ | ⟨-, hx⟩
    · cases es with
      | nil =>
        obtain ⟨rfl, hrest⟩ := List.cons.inj (hx.symm.trans h)
        exact ⟨ops, fun o ho => List.mem_cons_of_mem _ ho, hrest⟩
      | cons e es =>
        obtain ⟨-, hrest⟩ := List.cons.inj (hx.symm.trans h)
        exact hlater hrest
    · exact hlater (hx.symm.trans h)

end Segment

/-- A return from the call `a` on top of other calls. -/
theorem cycle_of_ret {calls : List UInt16} {a : UInt16}
    (hi : Instruction.decode m.fetch = some .ret) (hl : m.stack.live = calls ++ [a]) :
    m.cycle.pc = a ∧ m.cycle.stack.live = calls := by
  have hpc := m.cycle_pc
  have hlive := m.cycle_live
  rw [hi] at hpc hlive
  have hstack : (m.setPc (m.pc + 2)).stack.live = calls ++ [a] := hl
  rw [hl] at hlive
  rw [nextPc, hstack, List.getLast?_concat] at hpc
  rw [callsAfter, List.dropLast_concat] at hlive
  exact ⟨hpc, hlive⟩

/-- The first instruction that leaves fewer calls than a call had made is the return from it. -/
theorem return_of_call {between rest : List Machine} {target : UInt16}
    (hops : ∀ op ∈ ops, op.isBatch = false ∧ op ≠ .reset ∧ op ≠ .resetCpu)
    (he : c.cycle.executed ops = between ++ r :: rest)
    (hi : Instruction.decode c.fetch = some (.call target)) (hroom : c.stack.live.length < 16)
    (hl : ∀ d ∈ between ++ [r], c.cycle.stack.live.length ≤ d.stack.live.length)
    (hend : r.cycle.stack.live.length < c.cycle.stack.live.length) :
    Instruction.decode r.fetch = some .ret ∧ r.cycle.pc = c.pc + 2 ∧
      r.cycle.stack.live = c.stack.live := by
  have hcall : c.cycle.stack.live = c.stack.live ++ [c.pc + 2] := by
    rw [cycle_live, hi, callsAfter_call hroom]
  have he' : c.cycle.executed ops = (between ++ [r]) ++ rest := by
    rw [he, List.append_assoc, List.singleton_append]
  have hknown := prefix_of_executed hops (fun _ => List.prefix_rfl) he' hl r (by simp)
  have hge := hl r (by simp)
  have hdrop := r.cycle_live
  have hret : Instruction.decode r.fetch = some .ret := by
    rw [hdrop] at hend
    exact ret_of_callsAfter_lt (hend.trans_le hge)
  rw [hret, callsAfter] at hdrop
  have hlength : r.stack.live.length = c.cycle.stack.live.length := by
    rw [hdrop, List.length_dropLast] at hend
    omega
  have hlive : r.stack.live = c.stack.live ++ [c.pc + 2] :=
    (hknown.eq_of_length hlength.symm).symm.trans hcall
  exact ⟨hret, cycle_of_ret hret hlive⟩

/-! Slots above the depth are never seen. -/

/-- The same machine, but for what is left in slots of its stack that are not live. -/
def SameCalls (m n : Machine) : Prop := ∃ s : CallStack, s.live = m.stack.live ∧ n = m.setStack s

theorem stackFault_setStack (m : Machine) (s : CallStack) (kind : FaultKind)
    (opcode address : UInt16) : (m.stackFault kind opcode address).stack = m.stack ∧
      (m.setStack s).stackFault kind opcode address =
        (m.stackFault kind opcode address).setStack s := by
  have hconfig : (m.setStack s).config = m.config := rfl
  unfold stackFault
  rw [hconfig]
  split
  · exact ⟨rfl, rfl⟩
  · exact ⟨rfl, rfl⟩

theorem alu_setStack (m : Machine) (s : CallStack) (op : AluOp) (x y : Fin 16) :
    (m.setStack s).alu op x y = (m.alu op x y).setStack s := by
  have hregister : ∀ z, (m.setStack s).register z = m.register z := fun _ => rfl
  simp only [alu, hregister]
  cases op.flag? (m.register x) (m.register y) with
  | none => rfl
  | some b => rfl

namespace SameCalls

theorem refl (m : Machine) : m.SameCalls m := ⟨m.stack, rfl, rfl⟩

theorem depth (h : m.SameCalls n) : n.stack.depth = m.stack.depth := by
  obtain ⟨s, hs, rfl⟩ := h
  rw [← m.stack.length_live, ← hs, s.length_live]
  rfl

theorem execute (h : m.SameCalls n) (opcode address : UInt16) (i : Instruction) :
    (m.execute opcode address i).SameCalls (n.execute opcode address i) := by
  obtain ⟨s, hs, rfl⟩ := h
  have hconfig : (m.setStack s).config = m.config := rfl
  have hstack : (m.setStack s).stack = s := rfl
  have hpc : (m.setStack s).pc = m.pc := rfl
  cases i with
  | ret =>
    simp only [Machine.execute, hstack]
    rcases CallStack.pop?_of_live_eq hs with ⟨hp, hp'⟩ | ⟨a, s', t', hp, hp', hlive⟩
    · obtain ⟨hkeep, hfault⟩ := m.stackFault_setStack s .stackUnderflow opcode address
      rw [hp, hp']
      exact ⟨s, by rw [hkeep]; exact hs, hfault⟩
    · rw [hp, hp']
      exact ⟨s', hlive, rfl⟩
  | call target =>
    simp only [Machine.execute, hstack, hpc, hconfig]
    rcases CallStack.push?_of_live_eq hs m.pc with ⟨hp, hp'⟩ | ⟨s', t', hp, hp', hlive⟩
    · rw [hp, hp']
      simp only []
      split
      · exact ⟨s, hs, rfl⟩
      · exact ⟨s, hs, rfl⟩
    · rw [hp, hp']
      exact ⟨s', hlive, rfl⟩
  | skip condition =>
    have hholds : (m.setStack s).holds condition = m.holds condition :=
      holds_map (φ := fun m => m.setStack s) rfl rfl condition
    simp only [Machine.execute, hholds]
    split
    · exact ⟨s, hs, rfl⟩
    · exact ⟨s, hs, rfl⟩
  | alu op x y =>
    obtain ⟨_, ha⟩ := m.alu_eq op x y
    refine ⟨s, ?_, m.alu_setStack s op x y⟩
    simp only [Machine.execute, ha]
    exact hs
  | restore x =>
    refine ⟨s, ?_, rfl⟩
    simp only [Machine.execute, Machine.restore]
    exact hs
  | _ => exact ⟨s, hs, rfl⟩

theorem map_of_stack {f : Machine → Machine} (h : m.SameCalls n)
    (hstack : (f m).stack = m.stack) (hset : ∀ s, f (m.setStack s) = (f m).setStack s) :
    (f m).SameCalls (f n) := by
  obtain ⟨s, hs, rfl⟩ := h
  exact ⟨s, by rw [hstack]; exact hs, hset s⟩

theorem cycle (h : m.SameCalls n) : m.cycle.SameCalls n.cycle := by
  have hpc : n.pc = m.pc := by
    obtain ⟨s, -, rfl⟩ := h
    rfl
  have hfetch : n.fetch = m.fetch := by
    obtain ⟨s, -, rfl⟩ := h
    rfl
  have hmoved : (m.setPc (m.pc + 2)).SameCalls (n.setPc (n.pc + 2)) := by
    rw [hpc]
    exact h.map_of_stack (f := fun m => m.setPc _) rfl fun _ => rfl
  cases hi : Instruction.decode m.fetch with
  | none =>
    rw [cycle_of_no_instruction hi, cycle_of_no_instruction (hfetch ▸ hi), hfetch, hpc]
    rw [hpc] at hmoved
    exact hmoved.map_of_stack (f := fun m => (m.halt _).countStep) rfl fun _ => rfl
  | some i =>
    rw [cycle_of_instruction hi, cycle_of_instruction (hfetch ▸ hi), hfetch, hpc]
    rw [hpc] at hmoved
    exact (hmoved.execute _ _ i).map_of_stack (f := countStep) rfl fun _ => rfl

theorem ready? (h : m.SameCalls n) : (m.ready? = none ∧ n.ready? = none) ∨
    ∃ d d', m.ready? = some d ∧ n.ready? = some d' ∧ d.SameCalls d' := by
  obtain ⟨s, hs, rfl⟩ := h
  have hready : (m.setStack s).ready? = m.ready?.map fun d => d.setStack s :=
    ready?_map (φ := fun m => m.setStack s) rfl rfl fun _ _ => rfl
  cases hd : m.ready? with
  | none => exact .inl ⟨rfl, by rw [hready, hd]; rfl⟩
  | some d => exact .inr ⟨d, _, rfl, by rw [hready, hd]; rfl, s, by rw [ready?_stack hd, hs], rfl⟩

theorem step (h : m.SameCalls n) : SameAnswer SameCalls m.step n.step := by
  rcases h.ready? with ⟨hm, hn⟩ | ⟨d, d', hm, hn, hd⟩
  · rw [step_of_not_ready hm, step_of_not_ready hn]
    exact ⟨rfl, h⟩
  · rw [step_of_ready hm, step_of_ready hn]
    exact ⟨rfl, hd.cycle⟩

theorem follows : Follows SameCalls fun _ => True where
  step h _ := h.step
  tick h := h.map_of_stack (f := tick) rfl fun _ => rfl
  faults := by
    rintro m _ ⟨s, -, rfl⟩
    rfl
  blocked := by
    rintro m _ ⟨s, -, rfl⟩
    rfl
  before_step _ _ := trivial
  before_tick _ _ := trivial

theorem perform (h : m.SameCalls n) (op : Operation) :
    SameAnswer SameCalls (m.perform op) (n.perform op) := by
  by_cases hop : op = .step ∨ op = .tick ∨ op.isBatch = true
  · exact follows.perform h hop trivial
  obtain ⟨hs, -, hb⟩ : op ≠ .step ∧ op ≠ .tick ∧ op.isBatch = false := by simpa using hop
  rcases op.step_or_reset_or_other with rfl | rfl | rfl | ⟨-, hr, hc⟩
  · exact absurd rfl hs
  · obtain ⟨s, -, rfl⟩ := h
    exact ⟨rfl, refl m.reset⟩
  · obtain ⟨s, -, rfl⟩ := h
    exact ⟨rfl, refl m.resetCpu⟩
  have hstack : (m.perform op).2.stack = m.stack := perform_stack hb (by simp [hs]) hr hc
  obtain ⟨s, hlive, rfl⟩ := h
  have hsame : (m.setStack s).perform op = ((m.perform op).1, (m.perform op).2.setStack s) := by
    cases op with
    | step => exact absurd rfl hs
    | reset => exact absurd rfl hr
    | resetCpu => exact absurd rfl hc
    | run | runFrame | runPaced => cases hb
    | load program =>
      exact perform_load_map (φ := fun m => m.setStack s) rfl (fun _ => rfl) program
    | setKey index down => exact perform_setKey_map (φ := fun m => m.setStack s) rfl fun _ => rfl
    | setNamedKey layout name down =>
      exact perform_setNamedKey_map (φ := fun m => m.setStack s) rfl (fun _ => rfl) layout name down
    | _ => rfl
  rw [hsame]
  exact ⟨rfl, s, by rw [hstack, hlive], rfl⟩

end SameCalls

theorem SameCalls.texts (h : m.SameCalls n) :
    n.cpuSummary = m.cpuSummary ∧ n.registers = m.registers := by
  have hdepth := h.depth
  obtain ⟨s, -, rfl⟩ := h
  constructor
  · have hpc : (m.setStack s).pcText = m.pcText := rfl
    have hindex : (m.setStack s).indexText = m.indexText := rfl
    have hhalted : (m.setStack s).halted = m.halted := rfl
    unfold cpuSummary
    rw [hdepth, hpc, hindex, hhalted]
  · unfold registers
    rw [hdepth]
    rfl

/-- The stack is a list of at most sixteen addresses, which calls and returns extend and shorten at
its end, and what its other slots hold makes no difference to anything. The instruction that ends a
call, in that it leaves fewer calls than there were behind it, is a return, and goes on behind that
call with the calls before it, whatever has happened in between. A call too deep and a return too
many leave the list as it is. -/
theorem returns_match_calls (m : Machine) :
    (∀ ops, (m.after ops).stack.live = (m.history ops).foldl Event.calls m.stack.live ∧
      (m.after ops).stack.live.length ≤ 16) ∧
    (∀ s : CallStack, s.live = m.stack.live → ∀ ops,
      let n := m.setStack s
      (n.performAll ops).1 = (m.performAll ops).1 ∧
        n.after ops = (m.after ops).setStack (n.after ops).stack ∧
        (n.after ops).stack.live = (m.after ops).stack.live ∧
        (n.after ops).cpuSummary = (m.after ops).cpuSummary ∧
        (n.after ops).registers = (m.after ops).registers) ∧
    (∀ ops, (∀ op ∈ ops, op ≠ .reset ∧ op ≠ .resetCpu) → ∀ before c between r rest target,
      m.executions ops = before ++ c :: (between ++ r :: rest) →
      Instruction.decode c.fetch = some (.call target) → c.stack.live.length < 16 →
      (∀ d ∈ between ++ [r], c.cycle.stack.live.length ≤ d.stack.live.length) →
      r.cycle.stack.live.length < c.cycle.stack.live.length →
      Instruction.decode r.fetch = some .ret ∧ r.cycle.pc = c.pc + 2 ∧
        r.cycle.stack.live = c.stack.live) ∧
    (∀ target, Instruction.decode m.fetch = some (.call target) → m.stack.live.length = 16 →
      m.cycle.stack.live = m.stack.live ∧ (m.config.strict = false → m.cycle.pc = target)) ∧
    (Instruction.decode m.fetch = some .ret → m.stack.live = [] →
      m.cycle.stack.live = [] ∧ m.cycle.pc = m.pc + 2) := by
  refine ⟨fun ops => ⟨m.live_after ops, (m.after ops).length_live_le⟩, fun s hs ops => ?_, ?_, ?_,
    ?_⟩
  · intro n
    obtain ⟨hreplies, hlast⟩ := sameAnswer_performAll (fun _ _ op h => SameCalls.perform h op)
      (show m.SameCalls n from ⟨s, hs, rfl⟩) ops
    have htexts := SameCalls.texts hlast
    obtain ⟨s', hlive, hn⟩ := hlast
    have hstack : (n.after ops).stack = s' := congrArg Machine.stack hn
    refine ⟨hreplies, ?_, ?_, htexts⟩
    · rw [hstack]
      exact hn
    · rw [hstack]
      exact hlive
  · intro ops hops before c between r rest target he hi hroom hl hend
    rw [← executed_singles] at he
    have hsingle := single_of_mem_singles (m := m)
      (Q := fun op => op ≠ .reset ∧ op ≠ .resetCpu) ⟨nofun, nofun⟩ ⟨nofun, nofun⟩ hops
    obtain ⟨todo, htodo, hrest⟩ := executed_split he
    exact return_of_call (fun op hop => hsingle op (htodo op hop)) hrest hi hroom hl hend
  · intro target hi hfull
    have hlive := m.cycle_live
    have hpc := m.cycle_pc
    rw [hi, callsAfter, if_neg (by omega)] at hlive
    rw [hi, nextPc] at hpc
    refine ⟨hlive, fun hlenient => ?_⟩
    rw [hpc, if_neg]
    rintro ⟨hstrict, -⟩
    cases hlenient.symm.trans hstrict
  · intro hi hempty
    have hlive := m.cycle_live
    have hpc := m.cycle_pc
    have hstack : (m.setPc (m.pc + 2)).stack.live = [] := hempty
    rw [hi, hempty] at hlive
    rw [hi, nextPc, hstack] at hpc
    exact ⟨hlive, hpc⟩

/-- A call within a call, which waits for a key. -/
def nestedCalls : List Operation :=
  [.poke 0x200 0x22, .poke 0x201 0x04, .poke 0x202 0x12, .poke 0x203 0x02,
    .poke 0x204 0x22, .poke 0x205 0x08, .poke 0x206 0x00, .poke 0x207 0xEE,
    .poke 0x208 0xF5, .poke 0x209 0x0A, .poke 0x20A 0x00, .poke 0x20B 0xEE]

set_option maxRecDepth 100000 in
/-- The outer call ends behind itself, though the host comes in while the inner one waits. -/
theorem outer_call_returns :
    let m := (initial {} (.listed [0] 0)).after nestedCalls
    let ops : List Operation := [.run 10, .setKey 3 true, .poke 0x300 7, .tick, .run 3]
    (∀ op ∈ ops, op ≠ .reset ∧ op ≠ .resetCpu) ∧ ∃ c between r rest,
      m.executions ops = c :: (between ++ r :: rest) ∧ between.length = 3 ∧ c.pc = 0x200 ∧
        Instruction.decode c.fetch = some (.call 0x204) ∧ c.stack.live.length < 16 ∧
        (∀ d ∈ between ++ [r], c.cycle.stack.live.length ≤ d.stack.live.length) ∧
        r.cycle.stack.live.length < c.cycle.stack.live.length ∧
        Instruction.decode r.fetch = some .ret ∧ r.cycle.pc = c.pc + 2 ∧
        r.cycle.stack.live = c.stack.live := by
  intro m ops
  have hops : ∀ op ∈ ops, op ≠ .reset ∧ op ≠ .resetCpu := by simp [ops]
  have hview : (m.executions ops).map
      (fun d => (d.pc, d.fetch, d.stack.live.length, d.cycle.stack.live.length)) =
      [(0x200, 0x2204, 0, 1), (0x204, 0x2208, 1, 2), (0x208, 0xF50A, 2, 2), (0x20A, 0x00EE, 2, 1),
        (0x206, 0x00EE, 1, 0), (0x202, 0x1202, 0, 0)] := by decide +kernel
  obtain ⟨c, _, he, hc, hview⟩ := List.map_eq_cons_iff.mp hview
  obtain ⟨call, _, rfl, hcall, hview⟩ := List.map_eq_cons_iff.mp hview
  obtain ⟨wait, _, rfl, hwait, hview⟩ := List.map_eq_cons_iff.mp hview
  obtain ⟨ret, _, rfl, hret, hview⟩ := List.map_eq_cons_iff.mp hview
  obtain ⟨r, rest, rfl, hr, -⟩ := List.map_eq_cons_iff.mp hview
  simp only [Prod.mk.injEq] at hc hcall hwait hret hr
  obtain ⟨hpc, hfetch, hdepth, hbehind⟩ := hc
  have hi : Instruction.decode c.fetch = some (.call 0x204) := by
    rw [hfetch]
    decide
  have hl : ∀ d ∈ [call, wait, ret] ++ [r], c.cycle.stack.live.length ≤ d.stack.live.length := by
    simp [hbehind, hcall, hwait, hret, hr]
  have hroom : c.stack.live.length < 16 := by omega
  have hend : r.cycle.stack.live.length < c.cycle.stack.live.length := by omega
  obtain ⟨-, -, hdiscipline, -⟩ := returns_match_calls m
  exact ⟨hops, c, [call, wait, ret], r, rest, he, rfl, hpc, hi, hroom, hl, hend,
    hdiscipline ops hops [] c [call, wait, ret] r rest 0x204 he hi hroom hl hend⟩

end Machine

end Chip8
