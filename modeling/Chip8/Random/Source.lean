import Chip8.Random.Twister

/-! Where random bytes come from. A source has no way back: bytes drawn are gone. -/
namespace Chip8.Random

/-- Bytes come from a seeded generator, or from a list that is read round and round. -/
inductive Source
  | seeded (generator : Twister)
  | listed (bytes : List UInt8) (position : Nat)
deriving DecidableEq

namespace Source

def ofSeed (seed : Int) : Source := .seeded (Twister.ofSeed seed)

/-- Only the low eight bits of each value count. -/
def ofList (values : List Int) : Source := .listed (values.map UInt8.ofInt) 0

def draw : Source → UInt8 × Source
  | .seeded g =>
    let (b, g) := g.byte
    (b, .seeded g)
  | .listed bytes k =>
    (bytes.getD k 0, .listed bytes (if k + 1 < bytes.length then k + 1 else 0))

end Source

end Chip8.Random
