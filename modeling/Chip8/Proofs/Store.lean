import Chip8.Proofs.Bare.Operations
import Mathlib.Data.List.DropRight

/-! The store as a map from addresses. Each address holds what was last put there, and there is
nothing outside. -/
namespace Chip8

namespace Memory

inductive Request
  | write (a v : Int)
  | writeAll (a : Int) (vs : List Int)
  | load (program : List UInt8)
  | reset
deriving DecidableEq

variable {s : Memory} {r : Request} {rs : List Request} {a : Int}

def answer (s : Memory) : Request → Except HostError Memory
  | .write a v => .ok (s.poke a v)
  | .writeAll a vs => .ok (s.pokeAll a vs)
  | .load program => s.load program
  | .reset => .ok initial

/-- A request that is refused leaves the store as it was. -/
def served (s : Memory) (r : Request) : Memory :=
  match s.answer r with
  | .ok t => t
  | .error _ => s

def serveAll (s : Memory) (rs : List Request) : Memory := rs.foldl served s

/-- The number that a request puts at the address `a`. -/
def Request.stored? (a : Int) : Request → Option Int
  | .write b v => if b = a then some v else none
  | .writeAll b vs => if b ≤ a then vs[(a - b).toNat]? else none
  | .load program =>
    if program.length ≤ maxProgramSize ∧ programStart ≤ a then
      program[(a - programStart).toNat]?.map fun b => (b.toNat : Int)
    else none
  | .reset => none

/-- The number last put at the address `a` since the last reset. -/
def lastStored? (a : Int) (rs : List Request) : Option Int :=
  ((rs.rtakeWhile fun r => decide (r ≠ .reset)).filterMap (Request.stored? a)).getLast?

/-- Inside the store its low eight bits, or the byte at power-on. Outside zero. -/
def contents (rs : List Request) (a : Int) : UInt8 :=
  if 0 ≤ a ∧ a < 4096 then ((lastStored? a rs).map UInt8.ofInt).getD (font.getD a.toNat 0) else 0

theorem lastStored?_concat_reset (a : Int) (rs : List Request) :
    lastStored? a (rs ++ [.reset]) = none := by
  rw [lastStored?, List.rtakeWhile_concat_neg _ _ _ (by simp)]
  rfl

theorem lastStored?_concat (h : r ≠ .reset) (a : Int) (rs : List Request) :
    lastStored? a (rs ++ [r]) = (r.stored? a).or (lastStored? a rs) := by
  rw [lastStored?, List.rtakeWhile_concat_pos _ _ _ (by simp [h]), List.filterMap_append,
    List.getLast?_append]
  cases hr : r.stored? a with
  | none => simp [hr, lastStored?]
  | some v => simp [hr]

/-- Of consecutive bytes only one can land on `a`. -/
theorem read_writeBytes (h : 0 ≤ a ∧ a < 4096) (s : Memory) (b : Int) (bs : List UInt8) :
    (s.writeBytes b bs).read a =
      if b ≤ a then bs[(a - b).toNat]?.getD (s.read a) else s.read a := by
  induction bs generalizing s b with
  | nil =>
    rw [writeBytes]
    split <;> rfl
  | cons c cs ih =>
    rw [writeBytes, ih]
    rcases Int.lt_trichotomy b a with hlt | rfl | hgt
    · have hoff : (a - b).toNat = (a - (b + 1)).toNat + 1 := by omega
      rw [if_pos (by omega), if_pos (by omega), hoff, List.getElem?_cons_succ,
        read_write_other s c (by omega)]
    · rw [if_neg (by omega), if_pos (by omega), Int.sub_self, read_write_same s c h]
      rfl
    · rw [if_neg (by omega), if_neg (by omega), read_write_other s c (by omega)]

theorem read_writeBytes_outside {b : Int} {bs : List UInt8} (h : ¬ (b ≤ a ∧ a < b + bs.length))
    (s : Memory) : (s.writeBytes b bs).read a = s.read a := by
  by_cases ha : 0 ≤ a ∧ a < 4096
  · rw [read_writeBytes ha]
    split
    · rw [List.getElem?_eq_none (by omega)]
      rfl
    · rfl
  · rw [read_outside _ (by omega), read_outside _ (by omega)]

theorem read_poke (h : 0 ≤ a ∧ a < 4096) (s : Memory) (b v : Int) :
    (s.poke b v).read a = if b = a then UInt8.ofInt v else s.read a := by
  rw [poke]
  by_cases hb : b = a
  · rw [if_pos hb, hb, read_write_same s _ h]
  · rw [if_neg hb, read_write_other s _ hb]

theorem read_pokeAll (h : 0 ≤ a ∧ a < 4096) (s : Memory) (b : Int) (vs : List Int) :
    (s.pokeAll b vs).read a =
      if b ≤ a then (vs[(a - b).toNat]?.map UInt8.ofInt).getD (s.read a) else s.read a := by
  rw [pokeAll, read_writeBytes h, List.getElem?_map]

theorem served_load_of_fits {program : List UInt8} (h : program.length ≤ maxProgramSize) :
    s.served (.load program) = s.writeBytes programStart program := by
  rw [served, answer, load, if_pos h]

theorem served_load_of_too_large {program : List UInt8} (h : ¬ program.length ≤ maxProgramSize) :
    s.served (.load program) = s := by
  rw [served, answer, load, if_neg h]

theorem map_byte (b? : Option UInt8) :
    b?.map (UInt8.ofInt ∘ fun b => (b.toNat : Int)) = b? := by
  cases b? with
  | none => rfl
  | some b => exact congrArg some (byte_toNat b)

/-- A request other than a reset changes the byte at `a` only if it puts a number there. -/
theorem read_served (h : 0 ≤ a ∧ a < 4096) (s : Memory) (hr : r ≠ .reset) :
    (s.served r).read a = ((r.stored? a).map UInt8.ofInt).getD (s.read a) := by
  cases r with
  | reset => exact absurd rfl hr
  | write b v =>
    rw [served, answer, read_poke h, Request.stored?]
    split <;> rfl
  | writeAll b vs =>
    rw [served, answer, read_pokeAll h, Request.stored?]
    split <;> rfl
  | load program =>
    rw [Request.stored?]
    by_cases hfit : program.length ≤ maxProgramSize
    · rw [served_load_of_fits hfit, read_writeBytes h, if_congr (and_iff_right hfit) rfl rfl]
      split
      · rw [Option.map_map]
        exact congrArg (Option.getD · _) (map_byte _).symm
      · rfl
    · rw [served_load_of_too_large hfit, if_neg fun hin => hfit hin.1]
      rfl

theorem read_initial_of_nonneg (h : 0 ≤ a) : initial.read a = font.getD a.toNat 0 := by
  have hread := read_initial a.toNat
  rw [Int.toNat_of_nonneg h] at hread
  exact hread

theorem read_serveAll (rs : List Request) (a : Int) :
    (initial.serveAll rs).read a = contents rs a := by
  unfold contents
  split
  · rename_i h
    induction rs using List.reverseRecOn with
    | nil => exact read_initial_of_nonneg h.1
    | append_singleton rs r ih =>
      rw [serveAll, List.foldl_concat, ← serveAll]
      by_cases hr : r = .reset
      · rw [hr, lastStored?_concat_reset]
        exact read_initial_of_nonneg h.1
      · rw [read_served h _ hr, ih, lastStored?_concat hr]
        cases r.stored? a <;> rfl
  · rename_i h
    exact read_outside _ (by omega)

end Memory

open Memory (Request)

theorem Machine.perform_load (m : Machine) (program : List UInt8) :
    m.perform (.load program) =
      if program.length ≤ 3584 then
        (⟨.ok .nothing, [.loaded program.length]⟩,
          m.setMemory (m.memory.writeBytes 0x200 program))
      else (⟨.error (.programSize program.length 3584), []⟩, m) := by
  have hmax : maxProgramSize = 3584 := rfl
  simp only [perform, load, Memory.load, hmax]
  split
  · rfl
  · rfl

/-! The same requests on a bare list of numbers. -/

namespace Bare

def writeAll (a : Int) : List Int → Act Unit
  | [] => return
  | v :: vs => do
    write a v
    writeAll (a + 1) vs

def request : Request → Act Unit
  | .write a v => write a v
  | .writeAll a vs => writeAll a vs
  | .load program => load program
  | .reset => modify fun s => { s with memory := firstMemory }

def served (s : Bare) (r : Request) : Bare := (request r s).2

def serveAll (s : Bare) (rs : List Request) : Bare := rs.foldl served s

theorem does_writeAll (m : Machine) (a : Int) (vs : List Int) :
    Does (writeAll a vs) m () (m.setMemory (m.memory.pokeAll a vs)) := by
  induction vs generalizing m a with
  | nil => exact does_pure _ m
  | cons v vs ih => exact does_bind (does_write m a rfl) (ih _ (a + 1))

theorem served_bare (m : Machine) (r : Request) :
    m.bare.served r = (m.setMemory (m.memory.served r)).bare := by
  cases r with
  | write a v => exact congrArg Prod.snd (does_write m a (b := UInt8.ofInt v) rfl)
  | writeAll a vs => exact congrArg Prod.snd (does_writeAll m a vs)
  | load program =>
    have hload : m.bare.served (.load program) = (m.perform (.load program)).2.bare :=
      congrArg Prod.snd (perform_load m program)
    rw [hload, m.perform_load]
    split
    · rename_i hfit
      rw [Memory.served_load_of_fits hfit]
      rfl
    · rename_i hfit
      rw [Memory.served_load_of_too_large hfit]
      rfl
  | reset => exact congrArg Prod.snd (does_resetMemory m)

theorem serveAll_bare (m : Machine) (rs : List Request) :
    m.bare.serveAll rs = (m.setMemory (m.memory.serveAll rs)).bare := by
  induction rs generalizing m with
  | nil => rfl
  | cons r rs ih =>
    rw [serveAll, List.foldl_cons, served_bare, ← serveAll, ih]
    rfl

theorem memory_bare (m : Machine) :
    m.bare.memory = (List.range 4096).map fun (a : Nat) => ((m.memory.read a).toNat : Int) := by
  apply List.ext_getElem
  · simp [Machine.bare]
  · intro a ha _
    have hin : a < 4096 := by simpa [Machine.bare] using ha
    simp [Machine.bare, Memory.read, hin]

end Bare

/-- However often the store is written, loaded and reset, each address inside holds the low eight
bits of the number last put there, or the byte at power-on if none was since the reset, and outside
all is zero. The list of its bytes stays at 4096, though there a number below zero would count from
the end and a stretch of another length would move what follows. Numbers written in a row land where
the row is inside, and nowhere else. A program that is too large is refused, and nothing changes. -/
theorem store_keeps_last_number (rs : List Request) :
    let s := Memory.initial.serveAll rs
    (∀ a, s.read a = Memory.contents rs a) ∧
    (∀ a count, s.readBytes a count =
      (List.range count.toNat).map fun (k : Nat) => Memory.contents rs (a + k)) ∧
    (∀ config source,
      let b := (Bare.start config source).serveAll rs
      (b.memory = (List.range 4096).map fun (a : Nat) => ((Memory.contents rs a).toNat : Int)) ∧
      ∀ a, Bare.read a b = (.ok ((Memory.contents rs a).toNat : Int), b)) ∧
    (∀ (t : Memory) b vs a, (t.pokeAll b vs).read a =
      if (0 ≤ a ∧ a < 4096) ∧ b ≤ a then
        (vs[(a - b).toNat]?.map UInt8.ofInt).getD (t.read a)
      else t.read a) ∧
    ∀ (m : Machine) program, m.perform (.load program) =
      if program.length ≤ 3584 then
        (⟨.ok .nothing, [.loaded program.length]⟩,
          m.setMemory (m.memory.writeBytes 0x200 program))
      else (⟨.error (.programSize program.length 3584), []⟩, m) := by
  intro s
  have hread : ∀ a, s.read a = Memory.contents rs a := Memory.read_serveAll rs
  refine ⟨hread, fun a count => ?_, fun config source => ?_, fun t b vs a => ?_,
    Machine.perform_load⟩
  · simp only [Memory.readBytes, hread]
  · have hstart : (Machine.initial config source).memory = .initial := by
      simp only [Machine.initial]
    rw [Bare.start_eq, Bare.serveAll_bare, hstart]
    constructor
    · rw [Bare.memory_bare]
      simp only [Machine.setMemory, Memory.read_serveAll]
    · intro a
      rw [← hread a]
      exact Bare.does_read _ a
  · by_cases h : 0 ≤ a ∧ a < 4096
    · rw [Memory.read_pokeAll h, if_congr (and_iff_right h) rfl rfl]
    · rw [if_neg fun hin => h hin.1, Memory.read_outside _ (by omega),
        Memory.read_outside _ (by omega)]

end Chip8
