import Chip8.HostError
import Chip8.Text.Plain

/-! How the command fails, and what it says and returns then. -/
namespace Chip8.Command

inductive ExitCode
  | success
  /-- The program ran into a fault. -/
  | machineError
  /-- Bad arguments, or a program file that is missing or of no use. -/
  | invalidArguments
  | internalError
deriving DecidableEq

def ExitCode.number : ExitCode → Nat
  | success => 0
  | machineError => 1
  | invalidArguments => 2
  | internalError => 3

/-- What the operating system reports: a number, if there is one, the reason, and the file. -/
structure SystemError where
  number : Option Int
  reason : String
  file : Option String
deriving DecidableEq

def SystemError.message (e : SystemError) : String :=
  match e.number, e.file with
  | some n, some file => s!"[Errno {n}] {e.reason}: {Text.quoted file}"
  | some n, none => s!"[Errno {n}] {e.reason}"
  | none, _ => e.reason

inductive Failure
  | misuse (e : HostError)
  | parameter (reason : String)
  | missing (e : SystemError)
  | forbidden (e : SystemError)
  | system (e : SystemError)
  | unexpected (reason : String)
deriving DecidableEq

namespace Failure

/-- Sorted by number: 2 is a missing file, 1 and 13 are refusals. -/
def ofSystem (e : SystemError) : Failure :=
  if e.number = some 2 then .missing e
  else if e.number = some 1 ∨ e.number = some 13 then .forbidden e
  else .system e

def message : Failure → String
  | misuse e => e.message
  | parameter reason | unexpected reason => reason
  | missing e | forbidden e | system e => e.message

def exitCode : Failure → ExitCode
  | misuse e => if e.expected then .invalidArguments else .internalError
  | parameter _ | missing _ | forbidden _ => .invalidArguments
  | system _ | unexpected _ => .internalError

def label (f : Failure) : String :=
  if f.exitCode = .internalError then "Internal error" else "Error"

end Failure

/-- What the command leaves behind. `backtrace` asks for the program's own call stack. -/
structure Outcome where
  exitCode : ExitCode
  stdout : String
  stderr : String
  backtrace : Bool
deriving DecidableEq

def line (s : String) : String := s ++ "\n"

/-- What the command itself says is plain, whatever names stand in it. -/
def say (s : String) : String := line (Text.plain s)

/-- A failure is told on standard error, behind what stands there already. -/
def Failure.outcome (f : Failure) (verbose : Bool) (stdout stderr : String) : Outcome where
  exitCode := f.exitCode
  stdout := stdout
  stderr := stderr ++ say (f.label ++ ": " ++ f.message)
  backtrace := verbose && f.exitCode == .internalError

end Chip8.Command
