import Chip8.Machine.Step

/-! A whole run as a host in real time would pace it, less the waiting: frames of so many
instructions, each followed by one tick. -/
namespace Chip8

/-- Why a paced run came to its end. -/
inductive Ending
  | spent
  | halted
  /-- The program waits for a key and none is held, so none will come. -/
  | blocked
  /-- A frame without an instruction, which only frames of no size bring about. -/
  | idle
deriving DecidableEq

structure Pace where
  steps : Nat
  frames : Nat
  ending : Ending
deriving DecidableEq

namespace Machine

def blocked (m : Machine) : Bool := m.keypad.waiting.isSome && m.keypad.firstHeld?.isNone

/-- Runs on, `steps` instructions and `frames` frames into the run, with `left` instructions to
go. -/
def paceFrom (perTick : Int) (steps frames left : Nat) (m : Machine) : Pace × Machine :=
  if left = 0 then (⟨steps, frames, .spent⟩, m)
  else
    let r := m.runFrame (min perTick left)
    if r.2.halted then (⟨steps + r.1, frames + 1, .halted⟩, r.2)
    else if r.2.blocked then (⟨steps + r.1, frames + 1, .blocked⟩, r.2)
    else if hr : r.1 = 0 then (⟨steps, frames + 1, .idle⟩, r.2)
    else paceFrom perTick (steps + r.1) (frames + 1) (left - r.1) r.2
termination_by left
decreasing_by exact Nat.sub_lt (Nat.pos_of_ne_zero ‹¬left = 0›) (Nat.pos_of_ne_zero hr)

def runPaced (maxSteps perTick : Int) (m : Machine) : Pace × Machine :=
  paceFrom perTick 0 0 maxSteps.toNat m

end Machine

end Chip8
