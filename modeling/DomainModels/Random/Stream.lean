/-!
A stream of random words from a seed: the key stream of ChaCha with twelve rounds.

The words are taken in the order in which the blocks list them. A number of 64 bits is two words,
the lower one first.
-/

namespace DomainModels.Random

/-- The sixteen words of a block. -/
abbrev Block : Type := Vector UInt32 16

def rotateLeft (x n : UInt32) : UInt32 := (x <<< n) ||| (x >>> (32 - n))

/-- Mixes four words of a block. -/
def quarterRound (s : Block) (a b c d : Fin 16) : Block :=
  let s := s.set a (s[a] + s[b])
  let s := s.set d (rotateLeft (s[d] ^^^ s[a]) 16)
  let s := s.set c (s[c] + s[d])
  let s := s.set b (rotateLeft (s[b] ^^^ s[c]) 12)
  let s := s.set a (s[a] + s[b])
  let s := s.set d (rotateLeft (s[d] ^^^ s[a]) 8)
  let s := s.set c (s[c] + s[d])
  s.set b (rotateLeft (s[b] ^^^ s[c]) 7)

/-- Mixes the columns and then the diagonals of a block. -/
def doubleRound (s : Block) : Block :=
  let s := quarterRound s 0 4 8 12
  let s := quarterRound s 1 5 9 13
  let s := quarterRound s 2 6 10 14
  let s := quarterRound s 3 7 11 15
  let s := quarterRound s 0 5 10 15
  let s := quarterRound s 1 6 11 12
  let s := quarterRound s 2 7 8 13
  quarterRound s 3 4 9 14

/-- The eight words of a key. -/
abbrev Key : Type := Vector UInt32 8

/-- The block before mixing. Its counter has 64 bits, and its stream is number zero. -/
def startBlock (key : Key) (counter : UInt64) : Block :=
  #v[0x61707865, 0x3320646e, 0x79622d32, 0x6b206574,
     key[0], key[1], key[2], key[3], key[4], key[5], key[6], key[7],
     counter.toUInt32, (counter >>> 32).toUInt32, 0, 0]

/-- The block at a place of the stream: six double rounds, and the start added to the result. -/
def block (key : Key) (counter : UInt64) : Block :=
  let start := startBlock key counter
  start.zipWith (· + ·) ((List.range 6).foldl (fun s _ => doubleRound s) start)

/-- A place in the stream of a key: the next block, and the words that are left of the last one. -/
structure Source where
  key : Key
  counter : UInt64
  pending : List UInt32

namespace Source

/-- One step of the generator that makes a key of a seed. -/
def seedStep (state : UInt64) : UInt64 := state * 6364136223846793005 + 11634580027462260723

/-- The word that a state of that generator stands for. -/
def seedWord (state : UInt64) : UInt32 :=
  let x := (((state >>> 18) ^^^ state) >>> 27).toUInt32
  let turn := (state >>> 59).toUInt32
  (x >>> turn) ||| (x <<< ((32 - turn) % 32))

/-- The state after some steps from a seed. -/
def seedState (seed : UInt64) (steps : Nat) : UInt64 :=
  (List.range steps).foldl (fun state _ => seedStep state) seed

/-- The start of the stream of a seed. -/
def ofSeed (seed : UInt64) : Source where
  key := Vector.ofFn fun i => seedWord (seedState seed (i + 1))
  counter := 0
  pending := []

/-- The next word. -/
def word : StateM Source UInt32 := fun s =>
  match s.pending with
  | w :: rest => (w, { s with pending := rest })
  | [] =>
    let words := block s.key s.counter
    (words[0], { s with counter := s.counter + 1, pending := words.toList.drop 1 })

/-- The next two words as one number. -/
def doubleWord : StateM Source UInt64 := do
  let low ← word
  let high ← word
  return (high.toUInt64 <<< 32) ||| low.toUInt64

end Source

end DomainModels.Random
