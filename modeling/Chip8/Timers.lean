/-! The delay and sound counters. They count down at the host's pace, whatever the program does. -/
namespace Chip8

structure Timers (α : Type) where
  delay : α
  sound : α
deriving DecidableEq

variable {α : Type} [OfNat α 0] [OfNat α 1] [LT α] [DecidableLT α]

/-- One step toward zero. What is not above zero stays. -/
def countDown [Sub α] (t : α) : α := if 0 < t then t - 1 else t

namespace Timers

def stopped : Timers α := ⟨0, 0⟩

def tick [Sub α] (t : Timers α) : Timers α := ⟨countDown t.delay, countDown t.sound⟩

def ticks [Sub α] : Nat → Timers α → Timers α
  | 0, t => t
  | n + 1, t => ticks n t.tick

def soundOn (t : Timers α) : Bool := decide (0 < t.sound)

end Timers

end Chip8
