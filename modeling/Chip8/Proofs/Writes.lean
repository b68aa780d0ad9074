import Chip8.Proofs.History
import Chip8.Proofs.Store
import Chip8.Proofs.Transfers

/-! What a run puts into the store. Two instructions put bytes there, and the host does. Each address
holds the byte that was last put there, or the one it had before the run. -/
namespace Chip8

namespace Memory

variable {s : Memory} {a : Int} {r : Request} {rs : List Request}

/-- The byte that a request puts at the address `a`. A reset puts one everywhere. -/
def Request.byte? (a : Int) : Request → Option UInt8
  | .reset => some (font.getD a.toNat 0)
  | r => (r.stored? a).map UInt8.ofInt

def lastByte? (a : Int) (rs : List Request) : Option UInt8 :=
  (rs.filterMap (Request.byte? a)).getLast?

theorem read_served_byte (h : 0 ≤ a ∧ a < 4096) (s : Memory) (r : Request) :
    (s.served r).read a = (r.byte? a).getD (s.read a) := by
  cases r with
  | reset => exact read_initial_of_nonneg h.1
  | _ => exact read_served h s (by simp)

theorem read_serveAll_byte (h : 0 ≤ a ∧ a < 4096) (s : Memory) (rs : List Request) :
    (s.serveAll rs).read a = (lastByte? a rs).getD (s.read a) :=
  foldl_last (fun s => s.read a) (fun s r => read_served_byte h s r) rs s

theorem serveAll_append (s : Memory) (rs qs : List Request) :
    s.serveAll (rs ++ qs) = (s.serveAll rs).serveAll qs := List.foldl_append

/-- Bytes for the addresses from `a` on, which wrap at sixteen bits. -/
def Request.line {n : Nat} (a : UInt16) (bytes : Fin n → UInt8) : List Request :=
  List.ofFn fun k => .write (wrapped a k) (bytes k).toNat

theorem serveAll_line {n : Nat} (s : Memory) (a : UInt16) (bytes : Fin n → UInt8) :
    s.serveAll (Request.line a bytes) = Machine.storeAt s a (List.ofFn bytes) := by
  induction n generalizing s a with
  | zero => rfl
  | succ n ih =>
    have hfirst : s.served (.write (wrapped a (0 : Fin (n + 1))) (bytes 0).toNat) =
        s.write a.toNat (bytes 0) := by
      rw [served, answer, poke, byte_toNat, Fin.val_zero, wrapped_zero]
    have hrest := ih (s.write a.toNat (bytes 0)) (a + 1) (bytes ·.succ)
    rw [Request.line, List.ofFn_succ, List.ofFn_succ, serveAll, List.foldl_cons, hfirst,
      Machine.storeAt, ← hrest, Request.line, serveAll]
    simp only [Fin.val_succ, wrapped_succ]

end Memory

open Memory (Request)

/-- What an instruction puts into the store. -/
def Machine.puts (m : Machine) : Option Instruction → List Request
  | some (.decimal x) =>
    Request.line m.i ![m.register x / 100, m.register x / 10 % 10, m.register x % 10]
  | some (.save x) => Request.line m.i (m.upTo x)
  | _ => []

/-- What the host puts there itself. -/
def Operation.puts : Operation → List Request
  | .poke a v => [.write a v]
  | .load program => [.load program]
  | .reset => [.reset]
  | _ => []

namespace Event

def puts : Event → List Request
  | executed m => m.puts (Instruction.decode m.fetch)
  | stuck => []
  | host op => op.puts

/-- Whether the event puts a byte at the address `a`. -/
def touches (a : Nat) (e : Event) : Bool := e.puts.any fun r => (r.byte? a).isSome

theorem lastByte?_of_untouched {past : List Event} {a : Nat}
    (h : ∀ e ∈ past, e.touches a = false) : Memory.lastByte? a (past.flatMap puts) = none := by
  have hnone : (past.flatMap puts).filterMap (Request.byte? a) = [] := by
    apply List.filterMap_eq_nil_iff.mpr
    intro r hr
    obtain ⟨e, he, hput⟩ := List.mem_flatMap.mp hr
    have hall := List.any_eq_false.mp (h e he) r hput
    exact Option.not_isSome_iff_eq_none.mp hall
  rw [Memory.lastByte?, hnone]
  rfl

end Event

namespace Machine

variable {m r : Machine} {op : Operation} {a : Nat}

theorem execute_memory (m : Machine) (opcode address : UInt16) (i : Instruction) :
    (m.execute opcode address i).memory = m.memory.serveAll (m.puts (some i)) := by
  have hbranch := m.execute_of_branches opcode address (i := i)
  cases i with
  | ret | call target | skip condition | alu op x y =>
    obtain ⟨_, _, _, _, h⟩ := hbranch rfl
    rw [h]
    rfl
  | decimal x =>
    rw [puts, Memory.serveAll_line, ← digits_eq]
    rfl
  | save x =>
    rw [puts, Memory.serveAll_line, ← take_registers]
    rfl
  | restore x => exact m.restore_memory x
  | _ => rfl

theorem cycle_memory (m : Machine) :
    m.cycle.memory = m.memory.serveAll (Event.executed m).puts := by
  rw [Event.puts]
  cases h : Instruction.decode m.fetch with
  | none =>
    rw [cycle_of_no_instruction h]
    rfl
  | some i =>
    rw [cycle_of_instruction h]
    exact (execute_memory _ m.fetch m.pc i).trans (by cases i <;> rfl)

theorem perform_load_memory (m : Machine) (program : List UInt8) :
    (m.perform (.load program)).2.memory = m.memory.served (.load program) := by
  rw [m.perform_load]
  split
  · rename_i hfit
    rw [Memory.served_load_of_fits hfit]
    rfl
  · rename_i hlarge
    rw [Memory.served_load_of_too_large hlarge]

theorem perform_memory (hb : op.isBatch = false) :
    (m.perform op).2.memory = m.memory.serveAll (m.event op).puts := by
  cases op with
  | step =>
    rcases m.step_cases with ⟨d, hd, hs⟩ | ⟨hd, hs⟩
    · rw [perform_step, hs, event_of_ready hd, cycle_memory, ready?_memory hd]
    · rw [perform_step, hs, event_of_not_ready hd]
      rfl
  | run | runFrame | runPaced => cases hb
  | load program => exact m.perform_load_memory program
  | setKey index down =>
    obtain ⟨_, h⟩ := m.setKey_eq index down
    rw [h]
    rfl
  | setNamedKey layout name down =>
    obtain ⟨_, h⟩ := m.setNamedKey_eq layout name down
    rw [h]
    rfl
  | _ => rfl

/-- The store after a run is the store before it with all that was put there since. -/
theorem after_memory (m : Machine) (ops : List Operation) :
    (m.after ops).memory = m.memory.serveAll ((m.history ops).flatMap Event.puts) := by
  refine history_induction
    (P := fun n past => n.memory = m.memory.serveAll (past.flatMap Event.puts)) ?_ rfl ops
  intro n past op hb h
  rw [perform_memory hb, h, ← Memory.serveAll_append, List.flatMap_append]
  simp

/-- The byte at the address `a` after the run `ops`. -/
def newest (m : Machine) (ops : List Operation) (a : Nat) : UInt8 :=
  if a < 4096 then
    (Memory.lastByte? a ((m.history ops).flatMap Event.puts)).getD (m.memory.read a)
  else 0

theorem read_after (m : Machine) (ops : List Operation) (a : Nat) :
    (m.after ops).memory.read a = m.newest ops a := by
  rw [newest]
  split
  · rw [after_memory, Memory.read_serveAll_byte (by omega)]
  · exact Memory.read_outside _ (by omega)

theorem read_after_of_untouched {ops : List Operation}
    (h : ∀ e ∈ m.history ops, e.touches a = false) :
    (m.after ops).memory.read a = m.memory.read a := by
  rw [read_after, newest, Event.lastByte?_of_untouched h]
  split
  · rfl
  · exact (Memory.read_outside _ (by omega)).symm

end Machine

end Chip8
