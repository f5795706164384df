/-!
A source of pseudo-random words: the Mersenne twister with 624 words of state.
-/

namespace Flowchart.Oracle

structure Twister where
  words : Array UInt32
  /-- The next word to hand out; 624 when a new batch has to be made first. -/
  next : Nat
deriving Repr, Inhabited

namespace Twister

def size : Nat := 624

def middle : Nat := 397

def word (words : Array UInt32) (index : Nat) : UInt32 := words.getD index 0

def fill (seed : UInt32) : Array UInt32 :=
  (List.range (size - 1)).foldl (fun words index =>
    let last := word words index
    let mixed := (1812433253 : UInt32) * (last ^^^ (last >>> 30))
    words.push (mixed + UInt32.ofNat (index + 1))) #[seed]

def wrap (words : Array UInt32) (index : Nat) : Array UInt32 × Nat :=
  if size ≤ index then (words.setIfInBounds 0 (word words (size - 1)), 1) else (words, index)

def mixKey (key : Array UInt32) (state : Array UInt32 × Nat × Nat) :
    Array UInt32 × Nat × Nat :=
  let (words, index, position) := state
  let last := word words (index - 1)
  let mixed := (word words index ^^^ ((last ^^^ (last >>> 30)) * 1664525)) +
    word key position + UInt32.ofNat position
  let (words, index) := wrap (words.setIfInBounds index mixed) (index + 1)
  (words, index, if position + 1 < key.size then position + 1 else 0)

def mixPosition (state : Array UInt32 × Nat) : Array UInt32 × Nat :=
  let (words, index) := state
  let last := word words (index - 1)
  let mixed := (word words index ^^^ ((last ^^^ (last >>> 30)) * 1566083941)) - UInt32.ofNat index
  wrap (words.setIfInBounds index mixed) (index + 1)

def ofKey (key : Array UInt32) : Twister :=
  let (words, index, _) := Nat.repeat (mixKey key) (max size key.size) (fill 19650218, 1, 0)
  let (words, _) := Nat.repeat mixPosition (size - 1) (words, index)
  ⟨words.setIfInBounds 0 0x80000000, size⟩

def keyOf (seed : Nat) : Array UInt32 :=
  let count := max 1 ((seed.log2 + 32) / 32)
  (Array.range count).map fun index => UInt32.ofNat (seed >>> (32 * index))

def ofSeed (seed : Int) : Twister := ofKey (keyOf seed.natAbs)

def renewWord (words : Array UInt32) (index : Nat) : Array UInt32 :=
  let joined := (word words index &&& 0x80000000) |||
    (word words ((index + 1) % size) &&& 0x7FFFFFFF)
  let mask : UInt32 := if joined &&& 1 = 1 then 0x9908B0DF else 0
  words.setIfInBounds index
    (word words ((index + middle) % size) ^^^ (joined >>> 1) ^^^ mask)

def renew (words : Array UInt32) : Array UInt32 := (List.range size).foldl renewWord words

def temper (value : UInt32) : UInt32 :=
  let value := value ^^^ (value >>> 11)
  let value := value ^^^ ((value <<< 7) &&& 0x9D2C5680)
  let value := value ^^^ ((value <<< 15) &&& 0xEFC60000)
  value ^^^ (value >>> 18)

def draw (twister : Twister) : UInt32 × Twister :=
  if twister.next < size then
    (temper (word twister.words twister.next), { twister with next := twister.next + 1 })
  else
    let words := renew twister.words
    (temper (word words 0), ⟨words, 1⟩)

def drawHalf (twister : Twister) : Bool × Twister :=
  let (high, twister) := twister.draw
  let (_, twister) := twister.draw
  -- the highest of the 53 bits is the highest bit of the first word
  (high < 0x80000000, twister)

def drawBelowWithin (bound : Nat) : Nat → Twister → Nat × Twister
  | 0, twister => (0, twister)
  | fuel + 1, twister =>
      let (value, twister) := twister.draw
      let candidate := value.toNat >>> (31 - bound.log2)
      if candidate < bound then (candidate, twister) else drawBelowWithin bound fuel twister

/-- A number below a positive bound of at most 32 bits. Each draw succeeds with a chance of more
than one half, so that the limit on their number is never met. -/
def drawBelow (bound : Nat) (twister : Twister) : Nat × Twister :=
  drawBelowWithin bound 1000 twister

end Twister

end Flowchart.Oracle
