import Chip8.HostError

/-! Sixteen keys, held or not, and the register that a waiting program wants a key in. Keys and
registers go by one hexadecimal digit. -/
namespace Chip8

/-- Named here once, so that a numeral for a digit is the same term in every module. -/
instance sixteen_ne_zero : @NeZero Nat Zero.ofOfNat0 16 := ⟨by decide⟩

abbrev Key : Type := Fin 16

structure Keypad where
  held : Vector Bool 16
  waiting : Option (Fin 16)
deriving DecidableEq

namespace Keypad

def released : Keypad := ⟨Vector.replicate 16 false, none⟩

def isHeld (p : Keypad) (k : Key) : Bool := p.held[k]

def heldKeys (p : Keypad) : List Key := (List.finRange 16).filter p.isHeld

def firstHeld? (p : Keypad) : Option Key := (List.finRange 16).find? p.isHeld

def put (p : Keypad) (k : Key) (down : Bool) : Keypad := { p with held := p.held.set k down }

def releaseAll (p : Keypad) : Keypad := { p with held := Vector.replicate 16 false }

theorem isHeld_put (p : Keypad) (k j : Key) (down : Bool) :
    (p.put k down).isHeld j = if j = k then down else p.isHeld j := by
  simp [isHeld, put, Vector.getElem_set, Fin.ext_iff, eq_comm]

theorem isHeld_releaseAll (p : Keypad) (k : Key) : p.releaseAll.isHeld k = false := by
  simp [isHeld, releaseAll]

theorem mem_heldKeys {p : Keypad} {k : Key} : k ∈ p.heldKeys ↔ p.isHeld k = true := by
  simp [heldKeys]

theorem firstHeld?_eq_head? (p : Keypad) : p.firstHeld? = p.heldKeys.head? := by
  simp [firstHeld?, heldKeys, List.head?_filter]

def wait (p : Keypad) (r : Fin 16) : Keypad := { p with waiting := some r }

def stopWaiting (p : Keypad) : Keypad := { p with waiting := none }

def key? (index : Int) : Option Key :=
  if h : 0 ≤ index ∧ index < 16 then some ⟨index.toNat, by omega⟩ else none

def isPressed (p : Keypad) (index : Int) : Bool := (key? index).any p.isHeld

/-- An index without a key is an error on a strict keypad, and nothing at all on a lenient one. -/
def setKey (p : Keypad) (strict : Bool) (index : Int) (down : Bool) : Except HostError Keypad :=
  match key? index with
  | some k => .ok (p.put k down)
  | none => if strict then .error (.keyIndex index) else .ok p

end Keypad

end Chip8
