import Chip8.Command.Check
import Chip8.Display.Imaging
import Chip8.Operation
import Chip8.Summary

/-! The command: run a program without a screen, then print the screen or save a picture of it. -/
namespace Chip8.Command

def programName : String := "c8run"

def version : String := "1.0.0"

/-- Warnings always, the rest only on request. -/
def logText (verbose : Bool) (records : List Record) : String :=
  String.join <| (records.filter fun r => verbose || r.level == .warning).map fun r =>
    line (r.level.label ++ ": " ++ r.text)

def sayIfVerbose (o : Options) (s : String) : String := if o.verbose then say s else ""

/-- A fresh machine with the program loaded and the keys held. -/
def prepared (o : Options) (entropy : Int) (keys : List Key) (rom : List UInt8) :
    Except HostError Machine :=
  ((Machine.ofConfig ⟨o.seed, o.strict⟩ entropy).load rom).map fun m =>
    m.setKeypad (keys.foldl (fun p k => p.put k true) m.keypad)

def waitingText (m : Machine) : String :=
  match m.keypad.waiting with
  | some r => s!" waiting=V{Text.hex 1 r.val}"
  | none => ""

def statusText (p : Pace) (m : Machine) : String :=
  let sound := if m.timers.soundOn then "on" else "off"
  s!"steps={p.steps} frames={p.frames} pc={m.pcText} sound={sound}{waitingText m}"

def screenText (o : Options) (m : Machine) : String :=
  if o.text then say m.display.screenText else ""

/-- A machine that was run, and all that was said meanwhile. -/
structure Session where
  machine : Machine
  stdout : String
  stderr : String

def play (o : Options) (rom : List UInt8) (m : Machine) : Session :=
  let (p, last) := m.runPaced o.steps o.perTick
  { machine := last
    stdout := screenText o last ++ say (statusText p last)
    stderr :=
      logText o.verbose [.loaded rom.length] ++
      sayIfVerbose o s!"ROM: {(Path.ofText o.rom).text} ({rom.length} bytes)" ++
      logText o.verbose (m.haltRecords last ++ Machine.paceRecords p) }

def Session.fail (s : Session) (o : Options) (f : Failure) : Outcome :=
  f.outcome o.verbose s.stdout s.stderr

/-- A fault of the program is told last and is no failure of the command. -/
def Session.outcome (s : Session) : Outcome :=
  match s.machine.fault with
  | some f => ⟨.machineError, s.stdout, s.stderr ++ say ("Error: " ++ f.message), false⟩
  | none => ⟨.success, s.stdout, s.stderr, false⟩

def Session.tell (s : Session) (text : String) : Session := { s with stderr := s.stderr ++ text }

variable {m : Type → Type} [Monad m] {S : Type}

/-- Saves the picture, if one is wanted. -/
def Session.close (s : Session) (host : Host m) (lib : Imaging S) (o : Options) : m Outcome :=
  match o.screenshot with
  | none => return s.outcome
  | some name =>
    match s.machine.display.image lib o.scale .white .black with
    | .error e => return s.fail o (.misuse e)
    | .ok bytes => do
      let path := Path.ofText name
      match ← host.write path bytes with
      | .error f => return s.fail o f
      | .ok () =>
        return (s.tell (sayIfVerbose o s!"Screenshot written to: {path.text}")).outcome

/-- Keys come first: a bad name among them ends the command before the program is read. -/
def run (host : Host m) (lib : Imaging S) (entropy : Int) (o : Options) : m Outcome :=
  match o.keys.mapM KeyLayout.hexadecimal.key with
  | .error e => return Failure.outcome (.misuse e) o.verbose "" ""
  | .ok keys => do
    match ← readRom host (Path.ofText o.rom) with
    | .error f => return f.outcome o.verbose "" ""
    | .ok rom =>
      match prepared o entropy keys rom with
      | .error e => return Failure.outcome (.misuse e) o.verbose "" ""
      | .ok machine => (play o rom machine).close host lib o

def versionText : String := s!"{programName}, version {version}"

def helpText : String := "\n".intercalate [
  s!"Usage: {programName} [OPTIONS] ROM_FILE",
  "",
  "  Run a CHIP-8 program headlessly.",
  "",
  "Options:",
  "  -n, --steps N            Maximum number of instructions to execute (1000)",
  "  -t, --steps-per-tick N   Instructions executed per 60 Hz timer tick (10)",
  "  --seed N                 Seed for the random number instruction",
  "  --strict                 Halt on call stack overflow/underflow",
  "  -k, --key KEY            Hex key (0-F) to hold down. Repeatable.",
  "  -s, --screenshot FILE    Write the final screen to a PNG file",
  "  --scale N                Screenshot pixel scale (8)",
  "  --text / --no-text       Print the final screen as text",
  "  -v, --verbose            Verbose output",
  "  --version                Show the version and exit.",
  "  --help                   Show this message and exit."]

/-- The end of a command that breaks off without a word. -/
def brokenOff : Outcome := ⟨.machineError, "", "", false⟩

/-- The whole command, from its words. -/
def invoke (host : Host m) (lib : Imaging S) (entropy : Int) (words : List String) :
    m (Except UsageError Outcome) := do
  match ← (readRequest host words).run with
  | .error (.usage e) => return .error e
  | .error .nulInName => return .ok brokenOff
  | .ok .version => return .ok ⟨.success, say versionText, "", false⟩
  | .ok .help => return .ok ⟨.success, say helpText, "", false⟩
  | .ok (.run o) => return .ok (← run host lib entropy o)

end Chip8.Command
