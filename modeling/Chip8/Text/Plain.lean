/-! Plain text: what is left of a text when the control sequences of terminals are dropped. -/
namespace Chip8.Text

def isBetween (low high c : Char) : Bool := low ≤ c && c ≤ high

/-- Length of the control sequence that a text starts with, and zero if it starts with none: an
escape, a bracket, parameter characters, then characters up to the slash, and one that ends it. -/
def controlLength : List Char → Nat
  | '\x1b' :: '[' :: cs =>
    let parameters := cs.takeWhile (isBetween '0' '?')
    let rest := cs.dropWhile (isBetween '0' '?')
    let fillers := rest.takeWhile (isBetween ' ' '/')
    match rest.dropWhile (isBetween ' ' '/') with
    | c :: _ => if isBetween '@' '~' c then parameters.length + fillers.length + 3 else 0
    | [] => 0
  | _ => 0

/-- Drops the next `n` characters and all control sequences behind them. -/
def plainAfter : Nat → List Char → List Char
  | _, [] => []
  | n + 1, _ :: cs => plainAfter n cs
  | 0, c :: cs =>
    match controlLength (c :: cs) with
    | 0 => c :: plainAfter 0 cs
    | n + 1 => plainAfter n cs

def plain (s : String) : String := String.ofList (plainAfter 0 s.toList)

end Chip8.Text
