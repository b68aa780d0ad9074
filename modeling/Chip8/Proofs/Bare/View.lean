import Chip8.Proofs.Bare.Execute
import Chip8.Proofs.Sprite
import Chip8.Proofs.Width

/-! The machine as bare numbers, and what the accesses to its parts do there. -/
namespace Chip8

def Machine.bare (m : Machine) : Bare where
  strict := m.config.strict
  v := m.v.toList.map fun b => (b.toNat : Int)
  i := m.i.toNat
  pc := m.pc.toNat
  stack := m.stack.slots.toList.map fun a => (a.toNat : Int)
  depth := m.stack.depth
  fault := m.fault.map fun f => (f.kind, (f.opcode.toNat : Int), (f.address.toNat : Int))
  memory := m.memory.bytes.toList.map fun b => (b.toNat : Int)
  pixels := m.display.pixels.toList
  changed := m.display.changed
  held := m.keypad.held.toList
  waiting := m.keypad.waiting.map fun r => (r.val : Int)
  delay := m.timers.delay.toNat
  sound := m.timers.sound.toNat
  source := m.source
  steps := m.steps

namespace Bare

variable {α β : Type} {m m' m'' : Machine} {a : α} {b : β} {l : List α} {k : Nat} {n : Int}

/-- On the numbers of `m` nothing is raised, the answer is `a`, and the numbers of `m'` are left. -/
def Does (act : Act α) (m : Machine) (a : α) (m' : Machine) : Prop :=
  act m.bare = (.ok a, m'.bare)

/-- On the numbers of `m` the index `n` turns out to have no place, and they are left as they are. -/
def BreaksOff (act : Act α) (m : Machine) (n : Int) : Prop := act m.bare = (.error (.index n), m.bare)

theorem exists_fin {c : Int} (h : 0 ≤ c ∧ c < k) : ∃ j : Fin k, c = j :=
  ⟨⟨c.toNat, by omega⟩, (Int.toNat_of_nonneg h.1).symm⟩

theorem does_pure (a : α) (m : Machine) : Does (pure a) m a m := rfl

theorem does_bind {act : Act α} {f : α → Act β} (h : Does act m a m') (hf : Does (f a) m' b m'') :
    Does (act >>= f) m b m'' := by
  have hb : (act >>= f) m.bare = ExceptT.bindCont f (act m.bare).1 (act m.bare).2 := rfl
  rw [Does, hb, h]
  exact hf

theorem breaksOff_bind {act : Act α} (h : BreaksOff act m n) (f : α → Act β) :
    BreaksOff (act >>= f) m n := by
  have hb : (act >>= f) m.bare = ExceptT.bindCont f (act m.bare).1 (act m.bare).2 := rfl
  rw [BreaksOff, hb, h]
  rfl

theorem breaksOff_after {act : Act α} {f : α → Act β} (h : Does act m a m)
    (hf : BreaksOff (f a) m n) : BreaksOff (act >>= f) m n := by
  have hb : (act >>= f) m.bare = ExceptT.bindCont f (act m.bare).1 (act m.bare).2 := rfl
  rw [BreaksOff, hb, h]
  exact hf

theorem breaksOff_item (h : place? l.length n = none) (m : Machine) : BreaksOff (item l n) m n := by
  unfold item
  rw [h]
  rfl

theorem does_get (m : Machine) : Does get m m.bare m := rfl

theorem does_modify {f : Bare → Bare} (h : f m.bare = m'.bare) : Does (modify f) m () m' := by
  change (Except.ok (), f m.bare) = _
  rw [h]

theorem does_ite {p : Prop} [Decidable p] {act act' : Act α} (h : p → Does act m a m')
    (h' : ¬ p → Does act' m a m') : Does (if p then act else act') m a m' := by
  split
  · exact h ‹_›
  · exact h' ‹_›

theorem place?_natCast {length : Nat} (h : k < length) : place? length k = some k := by
  rw [place?, if_pos (by omega), Int.toNat_natCast]

theorem does_item_at (hp : place? l.length n = some k) (hk : k < l.length) (m : Machine) :
    Does (item l n) m l[k] m := by
  unfold item
  rw [hp, Option.bind_some, List.getElem?_eq_getElem hk]
  rfl

theorem does_replaced_at (hp : place? l.length n = some k) (a : α) (m : Machine) :
    Does (replaced l n a) m (l.set k a) m := by
  unfold replaced
  rw [hp]
  rfl

theorem does_item (hk : k < l.length) (m : Machine) : Does (item l k) m l[k] m :=
  does_item_at (place?_natCast hk) hk m

theorem does_replaced (hk : k < l.length) (a : α) (m : Machine) :
    Does (replaced l k a) m (l.set k a) m := does_replaced_at (place?_natCast hk) a m

theorem does_register (m : Machine) (x : Fin 16) :
    Does (register x.val) m ((m.register x).toNat : Int) m := by
  have hx : x.val < m.bare.v.length := by simp [Machine.bare]
  have h := does_item hx m
  have he : m.bare.v[x.val] = ((m.register x).toNat : Int) := by
    simp [Machine.bare, Machine.register]
  rw [he] at h
  exact does_bind (does_get m) h

theorem does_putRegister (m : Machine) (x : Fin 16) {b : UInt8} (h : n = b.toNat) :
    Does (putRegister x.val n) m () (m.setRegister x b) := by
  have hx : x.val < m.bare.v.length := by simp [Machine.bare]
  subst h
  apply does_bind (does_get m)
  apply does_bind (does_replaced hx _ m)
  apply does_modify
  simp [Machine.bare, Machine.fault, Machine.setRegister, Vector.toList_set, List.map_set]

theorem does_setRegister (m : Machine) (x : Fin 16) {b : UInt8} (h : UInt8.ofInt n = b) :
    Does (setRegister x.val n) m () (m.setRegister x b) := by
  subst h
  exact does_putRegister m x (toNat_byte n).symm

theorem does_setPc (m : Machine) {a : UInt16} (h : UInt16.ofInt n = a) :
    Does (setPc n) m () (m.setPc a) := by
  subst h
  exact does_modify (by simp [Machine.bare, Machine.fault, Machine.setPc, toNat_address])

theorem does_setIndex (m : Machine) {a : UInt16} (h : UInt16.ofInt n = a) :
    Does (setIndex n) m () (m.setIndex a) := by
  subst h
  exact does_modify (by simp [Machine.bare, Machine.fault, Machine.setIndex, toNat_address])

theorem does_read (m : Machine) (a : Int) : Does (read a) m ((m.memory.read a).toNat : Int) m := by
  apply does_ite
  · rintro ⟨h0, h1⟩
    obtain ⟨k, rfl⟩ := Int.eq_ofNat_of_zero_le h0
    have hk : k < m.bare.memory.length := by simpa [Machine.bare] using Int.ofNat_lt.mp h1
    have he : m.bare.memory[k] = ((m.memory.read k).toNat : Int) := by
      simp [Machine.bare, Memory.read, Int.ofNat_lt.mp h1]
    rw [← he]
    exact does_bind (does_get m) (does_item hk m)
  · intro h
    rw [m.memory.read_outside (by omega)]
    exact does_pure _ m

theorem does_write (m : Machine) (a : Int) {b : UInt8} (h : UInt8.ofInt n = b) :
    Does (write a n) m () (m.setMemory (m.memory.write a b)) := by
  subst h
  apply does_ite
  · rintro ⟨h0, h1⟩
    obtain ⟨k, rfl⟩ := Int.eq_ofNat_of_zero_le h0
    have hk : k < m.bare.memory.length := by simpa [Machine.bare] using Int.ofNat_lt.mp h1
    apply does_bind (does_get m)
    apply does_bind (does_replaced hk _ m)
    apply does_modify
    rw [← toNat_byte]
    simp [Machine.bare, Machine.fault, Machine.setMemory, Memory.write, List.map_set]
  · intro h
    rw [m.memory.write_outside _ (by omega)]
    exact does_pure _ m

theorem does_halt (m : Machine) (kind : FaultKind) (opcode address : UInt16) :
    Does (halt kind opcode.toNat address.toNat) m () (m.halt ⟨kind, opcode, address⟩) := by
  apply does_modify
  simp only [Machine.bare, m.fault_halt]
  rfl

theorem does_stackFault (m : Machine) (kind : FaultKind) (opcode address : UInt16) :
    Does (stackFault kind opcode.toNat address.toNat) m () (m.stackFault kind opcode address) := by
  unfold Machine.stackFault
  apply does_bind (does_get m)
  apply does_ite
  · intro h
    rw [if_pos (show m.config.strict = true from h)]
    exact does_halt m kind opcode address
  · intro h
    rw [if_neg (show ¬ m.config.strict = true from h)]
    exact does_pure _ m

theorem does_push (m : Machine) (a opcode address : UInt16) :
    Does (push a.toNat opcode.toNat address.toNat) m ()
      (match m.stack.push? a with
        | some pushed => m.setStack pushed
        | none => m.stackFault .stackOverflow opcode address) := by
  unfold CallStack.push?
  apply does_bind (does_get m)
  apply does_ite
  · intro h
    rw [dif_neg (by have : (16 : Int) ≤ m.stack.depth := h; omega)]
    exact does_stackFault m _ opcode address
  · intro h
    have hd : m.stack.depth < 16 := by
      have : ¬ (16 : Int) ≤ m.stack.depth := h
      omega
    rw [dif_pos hd]
    apply does_bind (does_replaced (k := m.stack.depth) (by simpa [Machine.bare] using hd) _ m)
    apply does_modify
    simp [Machine.bare, Machine.fault, Machine.setStack, Vector.toList_set, List.map_set]

theorem does_pop_some {target : UInt16} {rest : CallStack}
    (h : m.stack.pop? = some (target, rest)) (opcode address : Int) :
    Does (pop opcode address) m (some (target.toNat : Int)) (m.setStack rest) := by
  unfold CallStack.pop? at h
  split at h
  · rename_i hd
    simp only [Option.some.injEq, Prod.mk.injEq] at h
    obtain ⟨rfl, rfl⟩ := h
    have hle := m.stack.depth_le
    have hne : m.bare.depth ≠ 0 := by simp only [Machine.bare]; omega
    have hm : m.bare.depth - 1 = (m.stack.depth - 1 : Nat) := by simp only [Machine.bare]; omega
    have hk : m.stack.depth - 1 < m.bare.stack.length := by simp [Machine.bare]; omega
    have hs : ({ m.bare with depth := m.bare.depth - 1 } : Bare) =
        (m.setStack ⟨m.stack.slots, m.stack.depth - 1, by omega⟩).bare := by
      rw [hm]
      rfl
    have he : m.bare.stack[m.stack.depth - 1] = (m.stack.slots[m.stack.depth - 1].toNat : Int) := by
      simp [Machine.bare]
    apply does_bind (does_get m)
    rw [if_neg hne]
    apply does_bind (does_modify hs)
    rw [hm, ← he]
    exact does_bind (does_item hk _) (does_pure _ _)
  · cases h

theorem does_pop_none (h : m.stack.pop? = none) (opcode address : UInt16) :
    Does (pop opcode.toNat address.toNat) m none (m.stackFault .stackUnderflow opcode address) := by
  have hd : m.bare.depth = 0 := by
    unfold CallStack.pop? at h
    split at h
    · cases h
    · simp only [Machine.bare]
      omega
  apply does_bind (does_get m)
  rw [if_pos hd]
  apply does_bind (does_stackFault m _ opcode address)
  exact does_pure _ _

end Bare

end Chip8
