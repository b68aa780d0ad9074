import Chip8.Command.Check

/-! A small file tree in memory that answers like the real thing: the command can be run on it
without touching a disk. Around the tree lie only directories to go up to. -/
namespace Chip8.Command

inductive Entry
  | file (bytes : List UInt8)
  | directory
deriving DecidableEq

/-- Entries by the parts of their names below the working directory; the first of a name counts. -/
structure Tree where
  entries : List (List String × Entry)
deriving DecidableEq

/-- Why a name leads nowhere, or to the wrong thing. -/
inductive Obstacle
  | missing
  | notDirectory
  | isDirectory
  | nameTooLong
deriving DecidableEq

namespace Obstacle

def number : Obstacle → Int
  | missing => 2
  | notDirectory => 20
  | isDirectory => 21
  | nameTooLong => 36

def reason : Obstacle → String
  | missing => "No such file or directory"
  | notDirectory => "Not a directory"
  | isDirectory => "Is a directory"
  | nameTooLong => "File name too long"

def failure (o : Obstacle) (file : String) : Failure :=
  .ofSystem ⟨some o.number, o.reason, some file⟩

end Obstacle

/-- Where a name leads: into the tree, or outside of it, to a directory or to nothing. -/
inductive Place
  | inside (parts : List String)
  | outside (present : Bool)
deriving DecidableEq

namespace Place

def enter (part : String) : Place → Place
  | inside parts =>
    if part = "" ∨ part = "." then inside parts
    else if part = ".." then (if parts = [] then outside true else inside parts.dropLast)
    else inside (parts ++ [part])
  | outside present =>
    if part = "" ∨ part = "." ∨ part = ".." then outside present else outside false

end Place

namespace Tree

def maxPartSize : Nat := 255

def maxNameSize : Nat := 4095

def entry? (t : Tree) (parts : List String) : Option Entry :=
  if parts = [] then some .directory else t.entries.lookup parts

def entryAt? (t : Tree) : Place → Option Entry
  | .inside parts => t.entry? parts
  | .outside true => some .directory
  | .outside false => none

/-- Only a directory can be entered. -/
def walk (t : Tree) : Place → List String → Except Obstacle Place
  | place, [] => .ok place
  | place, part :: parts =>
    match t.entryAt? place with
    | none => .error .missing
    | some .directory =>
      if maxPartSize < part.utf8ByteSize then .error .nameTooLong
      else t.walk (place.enter part) parts
    | some _ => .error .notDirectory

def place (t : Tree) (root : String) (parts : List String) : Except Obstacle Place :=
  t.walk (if root = "" then .inside [] else .outside true) parts

def findPath (t : Tree) (p : Path) : Except Obstacle Place :=
  if maxNameSize < p.text.utf8ByteSize then .error .nameTooLong else t.place p.root p.parts

/-- A name as typed: a slash at its end asks for a directory, and no name is no place. -/
def findName (t : Tree) (name : String) : Except Obstacle Place :=
  if name = "" then .error .missing
  else if maxNameSize < name.utf8ByteSize then .error .nameTooLong
  else t.place (Path.rootOf name) (Path.pieces name)

def kind? (t : Tree) (name : String) : Option FileKind :=
  match t.findName name with
  | .error _ => none
  | .ok place =>
    (t.entryAt? place).map fun
      | .directory => .directory
      | _ => .file

def read (t : Tree) (p : Path) : Except Failure (List UInt8) :=
  if holdsNul p.text then .error (.misuse .nulInName)
  else
    match t.findPath p with
    | .error o => .error (o.failure p.text)
    | .ok place =>
      match t.entryAt? place with
      | some (.file bytes) => .ok bytes
      | some .directory => .error (Obstacle.isDirectory.failure p.text)
      | none => .error (Obstacle.missing.failure p.text)

def put (t : Tree) (parts : List String) (e : Entry) : Tree := ⟨(parts, e) :: t.entries⟩

/-- A new file shows only within the tree. -/
def putAt (t : Tree) (e : Entry) : Place → Tree
  | .inside parts => t.put parts e
  | .outside _ => t

def write (t : Tree) (p : Path) (bytes : List UInt8) : Except Failure Tree :=
  if holdsNul p.text then .error (.misuse .nulInName)
  else
    match t.findPath p with
    | .error o => .error (o.failure p.text)
    | .ok place =>
      match t.entryAt? place with
      | some .directory => .error (Obstacle.isDirectory.failure p.text)
      | _ => .ok (t.putAt (.file bytes) place)

/-- The directories on the way to a name, outermost first. -/
def ancestors (parts : List String) : List (List String) :=
  (List.range' 1 (parts.length - 1)).map parts.take

def withDirectory (t : Tree) (name : String) : Tree :=
  let parts := (Path.ofText name).parts
  ((ancestors parts) ++ [parts]).foldl (fun t p => t.put p .directory) t

def withFile (t : Tree) (name : String) (bytes : List UInt8) : Tree :=
  let parts := (Path.ofText name).parts
  ((ancestors parts).foldl (fun t p => t.put p .directory) t).put parts (.file bytes)

def empty : Tree := ⟨[]⟩

/-- The tree as surroundings of the command. -/
def host : Host (StateM Tree) where
  kind? name := do return (← get).kind? name
  read p := do return (← get).read p
  write p bytes := do
    match (← get).write p bytes with
    | .error f => return .error f
    | .ok t =>
      set t
      return .ok ()

end Tree

end Chip8.Command
