/-! The MT19937 generator, seeded from an integer of any size. -/
namespace Chip8.Random

abbrev twisterSize : Nat := 624

/-- `next` is the word to be tempered next; at the end of the block a new block is made. -/
structure Twister where
  words : Vector UInt32 twisterSize
  next : Nat
deriving DecidableEq

namespace Twister

abbrev Block := Vector UInt32 twisterSize

/-- Positions count around the block. -/
def word (b : Block) (k : Nat) : UInt32 :=
  b.get ⟨k % twisterSize, Nat.mod_lt k (by decide)⟩

def setWord (b : Block) (k : Nat) (x : UInt32) : Block :=
  b.set (k % twisterSize) x (Nat.mod_lt k (by decide))

/-- The stir common to all seeding passes. -/
def mixed (multiplier previous : UInt32) : UInt32 :=
  (previous ^^^ (previous >>> 30)) * multiplier

def ofWord (seed : UInt32) : Block :=
  (List.range' 1 (twisterSize - 1)).foldl
    (fun b k => setWord b k (mixed 1812433253 (word b (k - 1)) + UInt32.ofNat k))
    (Vector.replicate twisterSize seed)

/-- Moves on within places 1 to 623. Past the last one, word 0 takes over the last word. -/
def advance (b : Block) (k : Nat) : Block × Nat :=
  if k + 1 < twisterSize then (b, k + 1) else (setWord b 0 (word b (twisterSize - 1)), 1)

def absorb (key : Array UInt32) (s : Block × Nat) (round : Nat) : Block × Nat :=
  let (b, k) := s
  let j := round % key.size
  advance
    (setWord b k ((word b k ^^^ mixed 1664525 (word b (k - 1))) + key.getD j 0 + UInt32.ofNat j)) k

def settle (s : Block × Nat) (_round : Nat) : Block × Nat :=
  let (b, k) := s
  advance (setWord b k ((word b k ^^^ mixed 1566083941 (word b (k - 1))) - UInt32.ofNat k)) k

def ofKey (key : Array UInt32) : Twister :=
  let s := (List.range (max twisterSize key.size)).foldl (absorb key) (ofWord 19650218, 1)
  let (b, _) := (List.range (twisterSize - 1)).foldl settle s
  ⟨setWord b 0 0x80000000, twisterSize⟩

/-- The 32-bit words of `n`, least significant first. -/
def wordsOf (n : Nat) : List UInt32 :=
  UInt32.ofNat n :: if n / 0x100000000 = 0 then [] else wordsOf (n / 0x100000000)
termination_by n
decreasing_by omega

/-- The sign of the seed does not count. -/
def ofSeed (seed : Int) : Twister :=
  ofKey (wordsOf seed.natAbs).toArray

def twist (b : Block) (k : Nat) : Block :=
  let y := (word b k &&& 0x80000000) ||| (word b (k + 1) &&& 0x7FFFFFFF)
  let odd : UInt32 := if y &&& 1 = 1 then 0x9908B0DF else 0
  setWord b k (word b (k + 397) ^^^ (y >>> 1) ^^^ odd)

def temper (y : UInt32) : UInt32 :=
  let y := y ^^^ (y >>> 11)
  let y := y ^^^ ((y <<< 7) &&& 0x9D2C5680)
  let y := y ^^^ ((y <<< 15) &&& 0xEFC60000)
  y ^^^ (y >>> 18)

def output (t : Twister) : UInt32 × Twister :=
  if t.next < twisterSize then (temper (word t.words t.next), { t with next := t.next + 1 })
  else
    let words := (List.range twisterSize).foldl twist t.words
    (temper (word words 0), ⟨words, 1⟩)

/-- The first of the next `tries` outputs whose upper nine bits are below 256. -/
def byteWithin : Nat → Twister → UInt8 × Twister
  | 0, t => (0, t)
  | tries + 1, t =>
    let (y, t) := t.output
    let high := y >>> 23
    if high < 256 then (high.toUInt8, t) else byteWithin tries t

/-- The top bit of the outputs is a linear recurrence over the 19937 bits of state, so it cannot
stay set for longer than that, and the tries never run out. -/
def byte (t : Twister) : UInt8 × Twister := byteWithin 20000 t

end Twister

end Chip8.Random
