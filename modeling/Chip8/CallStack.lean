/-! Return addresses in sixteen slots. Slots above the depth hold whatever was left there and are
never seen. -/
namespace Chip8

structure CallStack where
  slots : Vector UInt16 16
  depth : Nat
  depth_le : depth ≤ 16 := by omega
deriving DecidableEq

namespace CallStack

def empty : CallStack := ⟨Vector.replicate 16 0, 0, by omega⟩

/-- The live addresses, oldest first. -/
def live (s : CallStack) : List UInt16 := s.slots.toList.take s.depth

/-- A full stack takes no more. -/
def push? (s : CallStack) (a : UInt16) : Option CallStack :=
  if h : s.depth < 16 then some ⟨s.slots.set s.depth a, s.depth + 1, by omega⟩ else none

def pop? (s : CallStack) : Option (UInt16 × CallStack) :=
  if h : 0 < s.depth then
    have := s.depth_le
    some (s.slots[s.depth - 1], ⟨s.slots, s.depth - 1, by omega⟩)
  else none

variable {s t : CallStack} {a : UInt16}

theorem length_live (s : CallStack) : s.live.length = s.depth := by
  have := s.depth_le
  simp [live]
  omega

theorem live_push? (h : s.push? a = some t) : t.live = s.live ++ [a] := by
  unfold push? at h
  split at h
  · rename_i hs
    cases h
    simp only [live, Vector.toList_set]
    rw [List.take_succ_eq_append_getElem (by simpa using hs), List.take_set_of_le (Nat.le_refl _)]
    simp
  · cases h

theorem live_pop? (h : s.pop? = some (a, t)) : s.live = t.live ++ [a] := by
  unfold pop? at h
  split at h
  · rename_i hs
    simp only [Option.some.injEq, Prod.mk.injEq] at h
    obtain ⟨rfl, rfl⟩ := h
    have := s.depth_le
    simp only [live]
    conv => lhs; rw [show s.depth = s.depth - 1 + 1 by omega]
    rw [List.take_succ_eq_append_getElem (by simp; omega)]
    simp
  · cases h

theorem push?_eq_none_iff : s.push? a = none ↔ s.live.length = 16 := by
  have := s.depth_le
  rw [length_live]
  unfold push?
  split <;> simp <;> omega

theorem pop?_eq_none_iff : s.pop? = none ↔ s.live = [] := by
  rw [← List.length_eq_zero_iff, length_live]
  unfold pop?
  split <;> simp <;> omega

end CallStack

end Chip8
