import Chip8.HostError

/-! The store: 4 KiB with the font at its foot. It does not wrap: outside it reads give zero and
writes do nothing. -/
namespace Chip8

def memorySize : Nat := 4096

def programStart : Nat := 0x200

/-- Size of the area from the program start to the end of the store. -/
def maxProgramSize : Nat := memorySize - programStart

/-- The glyphs of the digits 0 to F, five rows each, drawn in the upper half of the byte. -/
def font : List UInt8 := [
  0xF0, 0x90, 0x90, 0x90, 0xF0,
  0x20, 0x60, 0x20, 0x20, 0x70,
  0xF0, 0x10, 0xF0, 0x80, 0xF0,
  0xF0, 0x10, 0xF0, 0x10, 0xF0,
  0x90, 0x90, 0xF0, 0x10, 0x10,
  0xF0, 0x80, 0xF0, 0x10, 0xF0,
  0xF0, 0x80, 0xF0, 0x90, 0xF0,
  0xF0, 0x10, 0x20, 0x40, 0x40,
  0xF0, 0x90, 0xF0, 0x90, 0xF0,
  0xF0, 0x90, 0xF0, 0x10, 0xF0,
  0xF0, 0x90, 0xF0, 0x90, 0x90,
  0xE0, 0x90, 0xE0, 0x90, 0xE0,
  0xF0, 0x80, 0x80, 0x80, 0xF0,
  0xE0, 0x90, 0x90, 0x90, 0xE0,
  0xF0, 0x80, 0xF0, 0x80, 0xF0,
  0xF0, 0x80, 0xF0, 0x80, 0x80]

structure Memory where
  bytes : Vector UInt8 4096
deriving DecidableEq

namespace Memory

def read (m : Memory) (a : Int) : UInt8 :=
  if 0 ≤ a then (m.bytes[a.toNat]?).getD 0 else 0

def write (m : Memory) (a : Int) (b : UInt8) : Memory :=
  if 0 ≤ a then ⟨m.bytes.setIfInBounds a.toNat b⟩ else m

def writeBytes (m : Memory) (a : Int) : List UInt8 → Memory
  | [] => m
  | b :: bs => (m.write a b).writeBytes (a + 1) bs

theorem read_outside (m : Memory) {a : Int} (h : a < 0 ∨ 4096 ≤ a) : m.read a = 0 := by
  unfold read
  split
  · rw [Vector.getElem?_eq_none (by omega)]
    rfl
  · rfl

theorem write_outside (m : Memory) {a : Int} (b : UInt8) (h : a < 0 ∨ 4096 ≤ a) :
    m.write a b = m := by
  unfold write
  split
  · rw [Vector.setIfInBounds_eq_of_size_le (by omega)]
  · rfl

theorem read_write_same (m : Memory) {a : Int} (b : UInt8) (h : 0 ≤ a ∧ a < 4096) :
    (m.write a b).read a = b := by
  simp [read, write, h.1, show a.toNat < 4096 by omega]

theorem read_write_other (m : Memory) {a c : Int} (b : UInt8) (h : a ≠ c) :
    (m.write a b).read c = m.read c := by
  unfold write
  split
  · unfold read
    split
    · rw [Vector.getElem?_setIfInBounds_ne (by omega)]
    · rfl
  · rfl

theorem writeBytes_toList {a : Nat} {bs : List UInt8} (s : Memory)
    (h : a + bs.length ≤ 4096) :
    (s.writeBytes a bs).bytes.toList =
      s.bytes.toList.take a ++ bs ++ s.bytes.toList.drop (a + bs.length) := by
  induction bs generalizing s a with
  | nil => simp [writeBytes]
  | cons b bs ih =>
    rw [List.length_cons] at h
    have hwrite : (s.write a b).bytes.toList = s.bytes.toList.set a b := by
      simp [write]
    have ha : a < s.bytes.toList.length := by simp; omega
    have htake : (s.bytes.toList.set a b).take (a + 1) = s.bytes.toList.take a ++ [b] := by
      rw [List.take_succ_eq_append_getElem (by simpa using ha), List.take_set_of_le (Nat.le_refl a),
        List.getElem_set_self]
    have hdrop : (s.bytes.toList.set a b).drop (a + 1 + bs.length) =
        s.bytes.toList.drop (a + (bs.length + 1)) := by
      rw [List.drop_set_of_lt (by omega)]
      congr 1
      omega
    have hcast : (a + 1 : Int) = ((a + 1 : Nat) : Int) := rfl
    rw [writeBytes, hcast, ih _ (by omega), hwrite, htake, hdrop]
    simp

def readBytes (m : Memory) (a count : Int) : List UInt8 :=
  (List.range count.toNat).map fun (k : Nat) => m.read (a + k)

def zeros : Memory := ⟨Vector.replicate 4096 0⟩

/-- Power-on contents: the font, then zeros. -/
def initial : Memory := zeros.writeBytes 0 font

theorem read_initial (a : Nat) : initial.read a = font.getD a 0 := by
  have hbytes : initial.bytes.toList = font ++ zeros.bytes.toList.drop 80 :=
    zeros.writeBytes_toList (show 0 + font.length ≤ 4096 by decide)
  have hread : initial.read a = (initial.bytes.toList[a]?).getD 0 := by simp [read]
  rw [hread, hbytes, List.getD_eq_getElem?_getD]
  by_cases ha : a < font.length
  · rw [List.getElem?_append_left ha]
  · have hfont : font.length ≤ a := by omega
    rw [List.getElem?_append_right hfont, List.getElem?_eq_none hfont]
    simp only [zeros, Vector.toList_replicate, List.drop_replicate, List.getElem?_replicate]
    split
    · rfl
    · rfl

/-- Writes the low eight bits of `v`. -/
def poke (m : Memory) (a v : Int) : Memory := m.write a (UInt8.ofInt v)

def pokeAll (m : Memory) (a : Int) (vs : List Int) : Memory :=
  m.writeBytes a (vs.map UInt8.ofInt)

/-- Puts a program at its start. What lies behind its end keeps its contents. -/
def load (m : Memory) (program : List UInt8) : Except HostError Memory :=
  if program.length ≤ maxProgramSize then .ok (m.writeBytes programStart program)
  else .error (.programSize program.length maxProgramSize)

end Memory

end Chip8
