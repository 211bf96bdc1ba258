import CommandDispatch.Naming.Allocator

/-!
# Numbers from the ChaCha stream cipher

The source of an allocator with a seed: the seed is spread over the key of the ChaCha stream cipher
with eight rounds, and each number is made from one word of the key stream, or from two where one
word would favour some numbers.
-/

namespace CommandDispatch.Naming

abbrev Block := Vector UInt32 16

def rotateLeft (x : UInt32) (k : UInt32) : UInt32 :=
  (x <<< k) ||| (x >>> (32 - k))

/-- The quarter round on four words of a block. -/
def quarterRound (b : Block) (i j k l : Fin 16) : Block :=
  let x := b[i] + b[j]
  let w := rotateLeft (b[l] ^^^ x) 16
  let z := b[k] + w
  let y := rotateLeft (b[j] ^^^ z) 12
  let x := x + y
  let w := rotateLeft (w ^^^ x) 8
  let z := z + w
  let y := rotateLeft (y ^^^ z) 7
  (((b.set i x).set j y).set k z).set l w

/-- A round on the columns and a round on the diagonals. -/
def doubleRound (b : Block) : Block :=
  let b := quarterRound b 0 4 8 12
  let b := quarterRound b 1 5 9 13
  let b := quarterRound b 2 6 10 14
  let b := quarterRound b 3 7 11 15
  let b := quarterRound b 0 5 10 15
  let b := quarterRound b 1 6 11 12
  let b := quarterRound b 2 7 8 13
  quarterRound b 3 4 9 14

/-- Eight rounds, added to the block they started from. -/
def keyStreamBlock (b : Block) : Block :=
  let mixed := doubleRound (doubleRound (doubleRound (doubleRound b)))
  Vector.zipWith (· + ·) mixed b

/-- A point of a key stream: the key, the number of the next block, and the words of the current
block with the position of the next one. -/
structure KeyStream where
  key : Vector UInt32 8
  counter : UInt64
  block : Block
  position : Nat

namespace KeyStream

/-- The block that the cipher mixes: its constants, the key, the block number and a nonce of
zero. -/
def input (key : Vector UInt32 8) (counter : UInt64) : Block :=
  #v[0x61707865, 0x3320646e, 0x79622d32, 0x6b206574,
    key[0], key[1], key[2], key[3], key[4], key[5], key[6], key[7],
    counter.toUInt32, (counter >>> 32).toUInt32, 0, 0]

def start (key : Vector UInt32 8) : KeyStream :=
  ⟨key, 1, keyStreamBlock (input key 0), 0⟩

def next (s : KeyStream) : UInt32 × KeyStream :=
  if h : s.position < 16 then
    (s.block[s.position], { s with position := s.position + 1 })
  else
    let block := keyStreamBlock (input s.key s.counter)
    (block[0], { s with counter := s.counter + 1, block := block, position := 1 })

end KeyStream

/-! ## Seeds -/

/-- A step of the linear congruential generator that spreads a seed. -/
def seedStep (x : UInt64) : UInt64 :=
  x * 6364136223846793005 + 11634580027462260723

/-- The word that a state of that generator gives out. -/
def seedWord (x : UInt64) : UInt32 :=
  let mixed := (((x >>> 18) ^^^ x) >>> 27).toUInt32
  let turn := (x >>> 59).toUInt32
  (mixed >>> turn) ||| (mixed <<< ((32 - turn) % 32))

def seedWords : Nat → UInt64 → List UInt32
  | 0, _ => []
  | n + 1, x => seedWord (seedStep x) :: seedWords n (seedStep x)

def keyOfSeed (seed : UInt64) : Vector UInt32 8 :=
  Vector.ofFn fun i => (seedWords 8 seed).getD i 0

/-! ## Numbers below a bound -/

/-- A number below `n` from one word, scaled down from 32 bits. Where the part cut off comes close
enough to one that a finer word could tip it over, a second word decides. -/
def below (n : Nat) (s : KeyStream) : Nat × KeyStream :=
  let first := s.next
  let product := first.1.toNat * n
  if UInt32.size - n < product % UInt32.size then
    let second := first.2.next
    let finer := product % UInt32.size + second.1.toNat * n / UInt32.size
    (product / UInt32.size + finer / UInt32.size, second.2)
  else (product / UInt32.size, first.2)

theorem below_lt {n : Nat} (pos : 0 < n) (small : n ≤ UInt32.size) (s : KeyStream) :
    (below n s).1 < n := by
  have word (w : UInt32) : w.toNat * n ≤ (UInt32.size - 1) * n :=
    Nat.mul_le_mul_right n (Nat.le_sub_one_of_lt w.toNat_lt_size)
  have hx := word s.next.1
  have hy := word s.next.2.next.1
  simp only [below, UInt32.size] at *
  split
  all_goals
    dsimp only
    generalize s.next.1.toNat * n = p at *
    generalize s.next.2.next.1.toNat * n = q at *
    omega

instance : Source KeyStream where
  draw s :=
    (⟨(below drawRange s).1, below_lt (by decide) (by decide) s⟩, (below drawRange s).2)

def defaultSeed : UInt64 := 45986749679038456

/-- An allocator with a seed, with nothing reserved. -/
def Allocator.ofSeed (seed : UInt64) : Allocator KeyStream :=
  { source := KeyStream.start (keyOfSeed seed) }

end CommandDispatch.Naming
