import Chip8.Proofs.Bare.Operations

/-! The sizes and ranges that every machine keeps. They are all that the instructions and the
host's operations need to find every index in its list. -/
namespace Chip8

/-- Operations that the library checks before it lets the host have them. -/
def Operation.checked : Operation → Bool
  | .load _ | .setKey _ _ | .setNamedKey _ _ _ => true
  | _ => false

namespace Bare

def IsByte (n : Int) : Prop := 0 ≤ n ∧ n < 256

def IsWord (n : Int) : Prop := 0 ≤ n ∧ n < 65536

structure WellFormed (s : Bare) : Prop where
  registers : s.v.length = 16 ∧ ∀ n ∈ s.v, IsByte n
  index : IsWord s.i
  counter : IsWord s.pc
  stack : s.stack.length = 16 ∧ ∀ a ∈ s.stack, IsWord a
  depth : 0 ≤ s.depth ∧ s.depth ≤ 16
  fault : ∀ f ∈ s.fault, IsWord f.2.1 ∧ IsWord f.2.2
  memory : s.memory.length = 4096 ∧ ∀ n ∈ s.memory, IsByte n
  pixels : s.pixels.length = 2048
  held : s.held.length = 16
  waiting : ∀ r ∈ s.waiting, 0 ≤ r ∧ r < 16
  timers : IsByte s.delay ∧ IsByte s.sound

variable {s : Bare} {config : Config} {source : Random.Source}

theorem isByte_toNat (b : UInt8) : IsByte b.toNat := ⟨by omega, Int.ofNat_lt.mpr b.toNat_lt⟩

theorem isWord_toNat (a : UInt16) : IsWord a.toNat := ⟨by omega, Int.ofNat_lt.mpr a.toNat_lt⟩

theorem toNat_of_isByte {n : Int} (h : IsByte n) : ((UInt8.ofInt n).toNat : Int) = n := by
  rw [toNat_byte, Int.emod_eq_of_lt h.1 h.2]

theorem toNat_of_isWord {n : Int} (h : IsWord n) : ((UInt16.ofInt n).toNat : Int) = n := by
  rw [toNat_address, Int.emod_eq_of_lt h.1 h.2]

theorem wellFormed_bare (m : Machine) : m.bare.WellFormed where
  registers := by
    refine ⟨by simp [Machine.bare], fun n hn => ?_⟩
    obtain ⟨b, _, rfl⟩ := List.mem_map.mp hn
    exact isByte_toNat b
  index := isWord_toNat m.i
  counter := isWord_toNat m.pc
  stack := by
    refine ⟨by simp [Machine.bare], fun n hn => ?_⟩
    obtain ⟨a, _, rfl⟩ := List.mem_map.mp hn
    exact isWord_toNat a
  depth := ⟨Int.natCast_nonneg _, Int.ofNat_le.mpr m.stack.depth_le⟩
  fault := by
    intro f hf
    obtain ⟨g, _, rfl⟩ := Option.map_eq_some_iff.mp hf
    exact ⟨isWord_toNat g.opcode, isWord_toNat g.address⟩
  memory := by
    refine ⟨by simp [Machine.bare], fun n hn => ?_⟩
    obtain ⟨b, _, rfl⟩ := List.mem_map.mp hn
    exact isByte_toNat b
  pixels := by simp [Machine.bare]
  held := by simp [Machine.bare]
  waiting := by
    intro n hn
    obtain ⟨r, _, rfl⟩ := Option.map_eq_some_iff.mp hn
    omega
  timers := ⟨isByte_toNat _, isByte_toNat _⟩

theorem exists_vector {β : Type} {n : Nat} {l : List Int} (cut : Int → β) (number : β → Int)
    (hl : l.length = n) (h : ∀ k ∈ l, number (cut k) = k) :
    ∃ w : Vector β n, w.toList.map number = l := by
  refine ⟨⟨(l.map cut).toArray, by simp [hl]⟩, ?_⟩
  change (l.map cut).map number = l
  rw [List.map_map]
  exact (List.map_congr_left h).trans (List.map_id l)

theorem exists_option {α β : Type} {o : Option α} (cut : α → β) (number : β → α)
    (h : ∀ a ∈ o, number (cut a) = a) : ∃ b : Option β, b.map number = o := by
  refine ⟨o.map cut, ?_⟩
  cases o with
  | none => rfl
  | some a => exact congrArg some (h a rfl)

/-- The ranges leave room for the numbers of a machine and for no others. -/
theorem WellFormed.exists_machine (h : s.WellFormed) : ∃ m : Machine, m.bare = s := by
  obtain ⟨v, hv⟩ := exists_vector UInt8.ofInt (fun b => (b.toNat : Int)) h.registers.1
    fun n hn => toNat_of_isByte (h.registers.2 n hn)
  obtain ⟨slots, hslots⟩ := exists_vector UInt16.ofInt (fun a => (a.toNat : Int)) h.stack.1
    fun n hn => toNat_of_isWord (h.stack.2 n hn)
  obtain ⟨bytes, hbytes⟩ := exists_vector UInt8.ofInt (fun b => (b.toNat : Int)) h.memory.1
    fun n hn => toNat_of_isByte (h.memory.2 n hn)
  obtain ⟨fault, hfault⟩ := exists_option (o := s.fault)
    (fun f => (⟨f.1, UInt16.ofInt f.2.1, UInt16.ofInt f.2.2⟩ : Fault))
    (fun f => (f.kind, (f.opcode.toNat : Int), (f.address.toNat : Int))) (by
      intro f hf
      simp only [toNat_of_isWord (h.fault f hf).1, toNat_of_isWord (h.fault f hf).2])
  obtain ⟨waiting, hwaiting⟩ := exists_option (o := s.waiting) (fun n => Fin.ofNat 16 n.toNat)
    (fun r => (r.val : Int)) (by
      intro n hn
      have := h.waiting n hn
      simp only [Fin.ofNat]
      omega)
  have hlast : fault.toList.getLast? = fault := by cases fault <;> rfl
  have hdepth := h.depth
  refine ⟨{
    config := { strict := s.strict }
    v := v
    i := UInt16.ofInt s.i
    pc := UInt16.ofInt s.pc
    stack := ⟨slots, s.depth.toNat, by omega⟩
    faults := fault.toList
    memory := ⟨bytes⟩
    display := ⟨⟨s.pixels.toArray, by simp [h.pixels]⟩, s.changed⟩
    keypad := ⟨⟨s.held.toArray, by simp [h.held]⟩, waiting⟩
    timers := ⟨UInt8.ofInt s.delay, UInt8.ofInt s.sound⟩
    source := s.source
    steps := s.steps }, ?_⟩
  simp only [Machine.bare, Machine.fault, hlast, hv, hslots, hbytes, hfault, hwaiting,
    toNat_of_isWord h.index, toNat_of_isWord h.counter, toNat_of_isByte h.timers.1,
    toNat_of_isByte h.timers.2, Int.toNat_of_nonneg hdepth.1]
  rfl

theorem attempted_of_error {m : Machine} {result : Except HostError Machine} {rs : List Record}
    {e : HostError} (h : (m.attempted result rs).1.answer = .error e) :
    (m.attempted result rs).2 = m := by
  cases result with
  | ok after => cases h
  | error e => rfl

theorem refused_of_outcome {answer : Except HostError Answer} {r : Raised}
    (h : outcome answer = .error r) : ∃ e, answer = .error e ∧ r = .refused e := by
  cases answer with
  | ok a => cases h
  | error e => exact ⟨e, rfl, (Except.error.inj h).symm⟩

/-- Only what the library checks can fail, and then nothing has been done. -/
theorem perform_of_error {m : Machine} {op : Operation} {e : HostError}
    (h : (m.perform op).1.answer = .error e) : op.checked = true ∧ (m.perform op).2 = m := by
  cases op with
  | load program => exact ⟨rfl, attempted_of_error h⟩
  | setKey index down => exact ⟨rfl, attempted_of_error h⟩
  | setNamedKey layout name down => exact ⟨rfl, attempted_of_error h⟩
  | _ => cases h

/-- What is raised is the library's refusal, with nothing done. No index is without its place. -/
theorem WellFormed.perform_error {op : Operation} {r : Raised} (h : s.WellFormed)
    (hr : (perform op s).1 = .error r) :
    op.checked = true ∧ (∃ e, r = .refused e) ∧ (perform op s).2 = s := by
  obtain ⟨m, rfl⟩ := h.exists_machine
  rw [perform_bare] at hr ⊢
  obtain ⟨e, he, rfl⟩ := refused_of_outcome hr
  obtain ⟨hc, hm⟩ := perform_of_error he
  exact ⟨hc, ⟨e, rfl⟩, by rw [hm]⟩

theorem WellFormed.perform (h : s.WellFormed) (op : Operation) : (perform op s).2.WellFormed := by
  obtain ⟨m, rfl⟩ := h.exists_machine
  rw [perform_bare]
  exact wellFormed_bare _

/-- Any word at all, in a machine that has not halted. -/
theorem WellFormed.executeWord (h : s.WellFormed) (hf : s.fault = none) (w address : UInt16) :
    ∃ t : Bare, t.WellFormed ∧ executeWord w.toNat address.toNat s = (.ok (), t) := by
  obtain ⟨m, rfl⟩ := h.exists_machine
  have hm : m.fault = none := Option.map_eq_none_iff.mp hf
  exact ⟨_, wellFormed_bare _, does_executeWord hm w address⟩

/-- Sizes and ranges hold in every machine that a host can reach, and nothing that a host does to a
machine of these sizes and ranges breaks off. -/
theorem wellFormed_after (config : Config) (source : Random.Source) (ops : List Operation) :
    (start config source).after ops = ((Machine.initial config source).after ops).bare ∧
      ((start config source).after ops).WellFormed ∧
      ∀ s : Bare, s.WellFormed →
        (∀ op, (Bare.perform op s).2.WellFormed ∧
          ∀ r, (Bare.perform op s).1 = .error r →
            op.checked = true ∧ (∃ e, r = .refused e) ∧ (Bare.perform op s).2 = s) ∧
        (s.fault = none → ∀ w address : UInt16,
          ∃ t : Bare, t.WellFormed ∧ Bare.executeWord w.toNat address.toNat s = (.ok (), t)) := by
  have hbare : (start config source).after ops =
      ((Machine.initial config source).after ops).bare := by
    rw [start_eq, after_bare]
  refine ⟨hbare, ?_, ?_⟩
  · rw [hbare]
    exact wellFormed_bare _
  · intro s hs
    refine ⟨fun op => ⟨hs.perform op, fun r hr => hs.perform_error hr⟩, ?_⟩
    intro hf w address
    exact hs.executeWord hf w address

/-- A strict machine refuses a key that does not exist, and takes any word. -/
theorem strict_start_refuses_key :
    let s := start { strict := true } (.listed [0] 0)
    s.WellFormed ∧ s.fault = none ∧
      (Bare.perform (.setKey 16 true) s).1 = .error (.refused (.keyIndex 16)) ∧
      (Bare.perform (.setKey 16 true) s).2 = s ∧ (Bare.perform .step s).2.WellFormed ∧
      ∃ t : Bare, t.WellFormed ∧ Bare.executeWord (0xDFFF : UInt16).toNat (0x200 : UInt16).toNat s =
        (.ok (), t) := by
  intro s
  obtain ⟨-, hs, hall⟩ := wellFormed_after { strict := true } (.listed [0] 0) []
  obtain ⟨hops, hwords⟩ := hall s hs
  have hr : (Bare.perform (.setKey 16 true) s).1 = .error (.refused (.keyIndex 16)) := rfl
  exact ⟨hs, rfl, hr, ((hops (.setKey 16 true)).2 _ hr).2.2, (hops .step).1,
    hwords rfl 0xDFFF 0x200⟩

end Bare

end Chip8
