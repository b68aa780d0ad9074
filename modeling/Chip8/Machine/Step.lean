import Chip8.Machine.Execute

/-! One instruction at a time, and many. -/
namespace Chip8.Machine

/-- The machine with the lowest held key delivered, if it waits for one; nothing while no key is
held. -/
def resume? (m : Machine) : Option Machine :=
  match m.keypad.waiting with
  | none => some m
  | some r =>
    m.keypad.firstHeld?.map fun k =>
      (m.setRegister r (UInt8.ofNat k)).setKeypad m.keypad.stopWaiting

/-- The machine that the next instruction acts on, unless halted or blocked. -/
def ready? (m : Machine) : Option Machine := if m.halted then none else m.resume?

def countStep (m : Machine) : Machine := { m with steps := m.steps + 1 }

/-- Fetches, moves past the word, executes. -/
def cycle (m : Machine) : Machine := ((m.setPc (m.pc + 2)).executeWord m.fetch m.pc).countStep

/-- Tells whether an instruction was executed. A delivered key and the instruction behind the wait
are one step. -/
def step (m : Machine) : Bool × Machine :=
  match m.ready? with
  | some m => (true, m.cycle)
  | none => (false, m)

theorem step_of_ready {m r : Machine} (h : m.ready? = some r) : m.step = (true, r.cycle) := by
  simp [step, h]

theorem step_of_not_ready {m : Machine} (h : m.ready? = none) : m.step = (false, m) := by
  simp [step, h]

/-- Up to `n` more instructions after `done` of them, ending early when one cannot be executed. -/
def runFrom (done : Nat) : Nat → Machine → Nat × Machine
  | 0, m => (done, m)
  | n + 1, m =>
    match m.step with
    | (true, m) => runFrom (done + 1) n m
    | (false, m) => (done, m)

/-- The number of instructions executed is at most `n`, and none for `n` below one. -/
def run (n : Int) (m : Machine) : Nat × Machine := runFrom 0 n.toNat m

/-- Instructions for one period of the timers, then their tick, which comes in any case. -/
def runFrame (n : Int) (m : Machine) : Nat × Machine :=
  let (k, m) := m.run n
  (k, m.tick)

end Chip8.Machine
