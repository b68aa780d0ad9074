/-! File names in lean form: no empty parts and no parts that stand for the place they are in. Parts
that go up stay. -/
namespace Chip8.Command

/-- `root` is empty for a name that starts at the working directory. -/
structure Path where
  root : String
  parts : List String
deriving DecidableEq

namespace Path

def leadingSlashes (s : String) : Nat := (s.toList.takeWhile (· = '/')).length

/-- Two slashes in front are a root of their own; any other number is the same as one. -/
def rootOf (s : String) : String :=
  match leadingSlashes s with
  | 0 => ""
  | 2 => "//"
  | _ => "/"

/-- The text between slashes, empty pieces included. -/
def pieces (s : String) : List String := (s.toList.splitOn '/').map String.ofList

def ofText (s : String) : Path :=
  ⟨rootOf s, (pieces s).filter fun p => p ≠ "" ∧ p ≠ "."⟩

/-- The working directory itself is a dot. -/
def text (p : Path) : String :=
  if p.root = "" ∧ p.parts = [] then "." else p.root ++ "/".intercalate p.parts

end Path

end Chip8.Command
