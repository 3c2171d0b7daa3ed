import Rumour.Halt

set_option autoImplicit false

/-!
Random streams. A stream is four 64-bit words; `word` is what it gives next and `advance` the stream
that is left, so a draw is a pure function of the stream. A seed is expanded into the four words by a
congruential sequence, two 32-bit outputs to a word. A child stream is seeded from one word of its
parent mixed with an offset.
-/

namespace Rumour.Random

def rotateLeft (word amount : UInt64) : UInt64 :=
  (word <<< amount) ||| (word >>> (64 - amount))

def rotateRight (word amount : UInt32) : UInt32 :=
  (word >>> amount) ||| (word <<< (32 - amount))

/-- The seed sequence moves on by one congruential step. -/
def nextSeedState (state : UInt64) : UInt64 :=
  state * 6364136223846793005 + 11634580027462260723

/-- The 32 bits of a seed state: its upper half mixed, then turned by its top five bits. -/
def seedOutput (state : UInt64) : UInt32 :=
  rotateRight (((state >>> 18) ^^^ state) >>> 27).toUInt32 (state >>> 59).toUInt32

/-- The stream word made of the two outputs that follow a seed state, the earlier one below. -/
def seedWord (state : UInt64) : UInt64 :=
  let low := nextSeedState state
  (seedOutput low).toUInt64 ||| ((seedOutput (nextSeedState low)).toUInt64 <<< 32)

def afterSeedWord (state : UInt64) : UInt64 :=
  nextSeedState (nextSeedState state)

structure Stream where
  first : UInt64
  second : UInt64
  third : UInt64
  fourth : UInt64
  deriving DecidableEq, Repr

namespace Stream

def ofSeed (seed : UInt64) : Stream :=
  let second := afterSeedWord seed
  let third := afterSeedWord second
  { first := seedWord seed
    second := seedWord second
    third := seedWord third
    fourth := seedWord (afterSeedWord third) }

def word (stream : Stream) : UInt64 :=
  rotateLeft (stream.first + stream.fourth) 23 + stream.first

def advance (stream : Stream) : Stream :=
  -- The later words take up the earlier ones first, then the other way round.
  let third := stream.third ^^^ stream.first
  let fourth := stream.fourth ^^^ stream.second
  { first := stream.first ^^^ fourth
    second := stream.second ^^^ third
    third := third ^^^ (stream.second <<< 17)
    fourth := rotateLeft fourth 45 }

def skip : Nat -> Stream -> Stream
  | 0, stream => stream
  | count + 1, stream => skip count stream.advance

/-- Spreads consecutive offsets over the seeds: 64 bits of the golden ratio's fraction. -/
def offsetSpread : UInt64 := 0x9e3779b97f4a7c15

def childSeed (stream : Stream) (offset : UInt64) : UInt64 :=
  stream.word ^^^ (offset * offsetSpread)

/-- The child at an offset; the parent spends one word on it. -/
def child (offset : UInt64) : StateM Stream Stream := fun stream =>
  (ofSeed (stream.childSeed offset), stream.advance)

end Stream

end Rumour.Random
