import Chip8.Command.Options
import Chip8.Command.Rom

/-! From the words of a command line to what they ask for. Values are looked at in the order in
which their switches first appear, the program file after all of them, and the first that will not
do decides. -/
namespace Chip8.Command

/-- What a command line asks for. -/
inductive Request
  | version
  | help
  | run (options : Options)
deriving DecidableEq

/-- Why nothing is done. A name that holds a NUL cannot even be looked up. -/
inductive Refusal
  | usage (e : UsageError)
  | nulInName
deriving DecidableEq

def holdsNul (name : String) : Bool := name.toList.contains (Char.ofNat 0)

variable {m : Type → Type} [Monad m]

def lookUp (host : Host m) (name : String) : ExceptT Refusal m (Option FileKind) :=
  if holdsNul name then throw .nulInName else host.kind? name

/-- A picture need not be there yet, but it must not be a directory. -/
def checkPicture (host : Host m) (name : String) : ExceptT Refusal m Unit := do
  match ← lookUp host name with
  | some .directory => throw (.usage (.isDirectory name))
  | _ => return ()

def checkSwitch (host : Host m) (s : Scanned) (switch : Switch) : ExceptT Refusal m Unit :=
  match s.value? switch with
  | none => return ()
  | some value =>
    if switch = .screenshot then checkPicture host value
    else if switch.accepts value then return ()
    else throw (.usage (.badValue switch value))

/-- The program has to be a file that is there. -/
def checkProgram (host : Host m) (name : String) : ExceptT Refusal m Unit := do
  match ← lookUp host name with
  | none => throw (.usage (.noSuchFile name))
  | some .directory => throw (.usage (.isDirectory name))
  | some .file => return ()

def checkArguments (host : Host m) : List String → ExceptT Refusal m String
  | [] => throw (.usage .missingRom)
  | [rom] => do
    checkProgram host rom
    return rom
  | rom :: word :: _ => do
    checkProgram host rom
    throw (.usage (.extraArgument word))

def checkAll (host : Host m) (s : Scanned) : ExceptT Refusal m Options := do
  s.given.forM (checkSwitch host s)
  let rom ← checkArguments host s.arguments
  return s.options rom

/-- The first of the switches that answer a question of their own wins over all values. -/
def Scanned.question? (s : Scanned) : Option Request :=
  match s.given.find? fun switch => switch = .version ∨ switch = .help with
  | some .version => some .version
  | some _ => some .help
  | none => none

def readRequest (host : Host m) (words : List String) : ExceptT Refusal m Request :=
  match Scanned.ofWords words with
  | .error e => throw (.usage e)
  | .ok s =>
    match s.question? with
    | some question => return question
    | none => return .run (← checkAll host s)

end Chip8.Command
