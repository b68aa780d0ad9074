import Chip8.Text.Numeral

/-! The command line. A word that starts with a dash and does not end there holds options, a lone
double dash ends them, and all other words are arguments. -/
namespace Chip8.Command

inductive Switch
  | steps | perTick | seed | strict | key | screenshot | scale | text | noText | verbose
  | version | help
deriving DecidableEq

namespace Switch

def takesValue : Switch → Bool
  | steps | perTick | seed | key | screenshot | scale => true
  | strict | text | noText | verbose | version | help => false

def longNames : List (String × Switch) := [
  ("--steps", steps), ("--steps-per-tick", perTick), ("--seed", seed), ("--strict", strict),
  ("--key", key), ("--screenshot", screenshot), ("--scale", scale), ("--text", text),
  ("--no-text", noText), ("--verbose", verbose), ("--version", version), ("--help", help)]

def shortNames : List (Char × Switch) := [
  ('n', steps), ('t', perTick), ('k', key), ('s', screenshot), ('v', verbose)]

/-- The long name. -/
def name (s : Switch) : String :=
  ((longNames.find? fun (_, other) => other = s).map (·.1)).getD ""

end Switch

inductive UsageError
  | unknownOption (name : String)
  | missingValue (name : String)
  | unexpectedValue (name : String)
  | badValue (switch : Switch) (value : String)
  | missingRom
  | extraArgument (word : String)
  | noSuchFile (name : String)
  | isDirectory (name : String)
deriving DecidableEq

def UsageError.message : UsageError → String
  | unknownOption name => s!"No such option: {name}"
  | missingValue name => s!"Option {name} requires an argument."
  | unexpectedValue name => s!"Option {name} does not take a value."
  | badValue switch value => s!"Invalid value for {switch.name}: {value}"
  | missingRom => "Missing argument ROM_FILE."
  | extraArgument word => s!"Got unexpected extra argument ({word})"
  | noSuchFile name => s!"File {name} does not exist."
  | isDirectory name => s!"File {name} is a directory."

/-- A switch and its value, which is empty where the switch takes none. -/
abbrev Setting : Type := Switch × String

/-- What one word of options says. The value of the last switch may be in the next word. -/
inductive OptionWord
  | complete (settings : List Setting)
  | pending (settings : List Setting) (last : Switch) (name : String)
deriving DecidableEq

def OptionWord.after (first : Setting) : OptionWord → OptionWord
  | complete settings => complete (first :: settings)
  | pending settings last name => pending (first :: settings) last name

/-- Letters behind one dash. A letter that takes a value takes the rest of the word. -/
def readLetters : List Char → Except UsageError OptionWord
  | [] => .ok (.complete [])
  | c :: cs =>
    match Switch.shortNames.lookup c with
    | none => .error (.unknownOption (String.ofList ['-', c]))
    | some s =>
      if s.takesValue then
        if cs = [] then .ok (.pending [] s (String.ofList ['-', c]))
        else .ok (.complete [(s, String.ofList cs)])
      else (readLetters cs).map (OptionWord.after (s, ""))

/-- Cuts a word at its first equals sign. -/
def cutValue (cs : List Char) : String × Option String :=
  match cs.dropWhile (· ≠ '=') with
  | [] => (String.ofList cs, none)
  | _ :: value => (String.ofList (cs.takeWhile (· ≠ '=')), some (String.ofList value))

def readNamed (s : Switch) (name : String) : Option String → Except UsageError OptionWord
  | some value =>
    if s.takesValue then .ok (.complete [(s, value)]) else .error (.unexpectedValue name)
  | none => if s.takesValue then .ok (.pending [] s name) else .ok (.complete [(s, "")])

def readWord (word : String) : Except UsageError OptionWord :=
  let (name, value) := cutValue word.toList
  match Switch.longNames.lookup name with
  | some s => readNamed s name value
  | none =>
    match word.toList with
    | '-' :: '-' :: _ => .error (.unknownOption name)
    | cs => readLetters (cs.drop 1)

def holdsOptions (word : String) : Bool :=
  match word.toList with
  | '-' :: _ :: _ => true
  | _ => false

/-- The settings and the arguments, each in the order given. -/
structure Scanned where
  settings : List Setting
  arguments : List String
deriving DecidableEq

namespace Scanned

def withSettings (settings : List Setting) (s : Scanned) : Scanned :=
  { s with settings := settings ++ s.settings }

def withArgument (word : String) (s : Scanned) : Scanned :=
  { s with arguments := word :: s.arguments }

/-- Whatever stands where a value is due is the value. -/
def ofWords : List String → Except UsageError Scanned
  | [] => .ok ⟨[], []⟩
  | word :: words =>
    if word = "--" then .ok ⟨[], words⟩
    else if holdsOptions word then
      match readWord word with
      | .error e => .error e
      | .ok (.complete settings) => (ofWords words).map (withSettings settings)
      | .ok (.pending settings last name) =>
        match words with
        | [] => .error (.missingValue name)
        | value :: words => (ofWords words).map (withSettings (settings ++ [(last, value)]))
    else (ofWords words).map (withArgument word)

/-- The switches that are set, each at its first place. -/
def given (s : Scanned) : List Switch := (s.settings.map (·.1)).eraseDups

/-- The values of a switch, in order. -/
def values (s : Scanned) (switch : Switch) : List String :=
  (s.settings.filter fun (given, _) => given = switch).map (·.2)

/-- Only the last value of a switch counts. -/
def value? (s : Scanned) (switch : Switch) : Option String := (s.values switch).getLast?

def has (s : Scanned) (switch : Switch) : Bool := s.settings.any fun (given, _) => given = switch

end Scanned

structure Options where
  rom : String
  steps : Int
  perTick : Int
  seed : Option Int
  strict : Bool
  keys : List String
  screenshot : Option String
  scale : Int
  text : Bool
  verbose : Bool
deriving DecidableEq

namespace Switch

/-- The least number that a switch takes. -/
def least? : Switch → Option Int
  | steps => some 0
  | perTick | scale => some 1
  | _ => none

def takesNumber : Switch → Bool
  | steps | perTick | seed | scale => true
  | _ => false

/-- Whether a value will do, as far as the value alone tells. -/
def accepts (s : Switch) (value : String) : Bool :=
  if s.takesNumber then
    match Text.integer? value with
    | some n => s.least?.all (· ≤ n)
    | none => false
  else true

end Switch

namespace Scanned

def number? (s : Scanned) (switch : Switch) : Option Int := s.value? switch >>= Text.integer?

/-- The later of the two switches decides. -/
def showsText (s : Scanned) : Bool :=
  match (s.settings.filter fun (given, _) => given = .text ∨ given = .noText).getLast? with
  | some (.noText, _) => false
  | _ => true

/-- The options, once all values are known to do. -/
def options (s : Scanned) (rom : String) : Options where
  rom := rom
  steps := (s.number? .steps).getD 1000
  perTick := (s.number? .perTick).getD 10
  seed := s.number? .seed
  strict := s.has .strict
  keys := s.values .key
  screenshot := s.value? .screenshot
  scale := (s.number? .scale).getD 8
  text := s.showsText
  verbose := s.has .verbose

end Scanned

end Chip8.Command
