import Chip8.Machine.Basic

/-! One-line descriptions, and the registers by name. -/
namespace Chip8

def truthWord (b : Bool) : String := if b then "True" else "False"

def Display.summary (d : Display) : String :=
  s!"Display(64x32, lit={d.litCount}, changed={truthWord d.changed})"

namespace Machine

def pcText (m : Machine) : String := "$" ++ Text.hex 3 m.pc.toNat

def indexText (m : Machine) : String := "$" ++ Text.hex 3 m.i.toNat

def summary (m : Machine) : String :=
  s!"Emulator(pc={m.pcText}, steps={m.steps}, halted={truthWord m.halted})"

def cpuSummary (m : Machine) : String :=
  s!"Chip8CPU(pc={m.pcText}, i={m.indexText}, stack={m.stack.depth}, halted={truthWord m.halted})"

def registerName (r : Fin 16) : String :=
  "v" ++ String.ofList ((Text.hexDigits 1 r).map Char.toLower)

def registers (m : Machine) : List (String × Nat) :=
  (List.finRange 16).map (fun r => (registerName r, (m.register r).toNat)) ++
    [("i", m.i.toNat), ("pc", m.pc.toNat), ("dt", m.timers.delay.toNat),
      ("st", m.timers.sound.toNat), ("sp", m.stack.depth)]

end Machine

end Chip8
