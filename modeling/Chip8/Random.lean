import Chip8.Word

namespace Chip8.Random

structure Key where
  first : UInt32
  second : UInt32
  deriving DecidableEq, Repr

def rotateLeft (w : UInt32) (amount : UInt32) : UInt32 :=
  (w <<< amount) ||| (w >>> (32 - amount))

/-- One round: add the second word to the first, rotate the second, and mix the two. -/
def mix (block : UInt32 × UInt32) (amount : UInt32) : UInt32 × UInt32 :=
  let sum := block.1 + block.2
  (sum, rotateLeft block.2 amount ^^^ sum)

namespace Key

/-- The third word of the key schedule. -/
def parity (k : Key) : UInt32 :=
  k.first ^^^ k.second ^^^ 0x1BD11BDA

/-- Four rounds, and after them the key words `a` and `b` and the number of the group. -/
def mixGroup (a b number : UInt32) (amounts : List UInt32) (block : UInt32 × UInt32) :
    UInt32 × UInt32 :=
  let mixed := amounts.foldl mix block
  (mixed.1 + a, mixed.2 + b + number)

def oddAmounts : List UInt32 := [13, 15, 26, 6]

def evenAmounts : List UInt32 := [17, 29, 16, 24]

def block (k : Key) (counter : UInt32) : UInt32 × UInt32 :=
  let start := (k.first, counter + k.second)
  let first := mixGroup k.second k.parity 1 oddAmounts start
  let second := mixGroup k.parity k.first 2 evenAmounts first
  let third := mixGroup k.first k.second 3 oddAmounts second
  let fourth := mixGroup k.second k.parity 4 evenAmounts third
  mixGroup k.parity k.first 5 oddAmounts fourth

def derive (k : Key) (counter : UInt32) : Key :=
  let b := k.block counter
  ⟨b.1, b.2⟩

def next (k : Key) : Key :=
  k.derive 0

/-- A draw splits the key: `next` is one half, and the byte comes from the other. -/
def byte (k : Key) : UInt8 :=
  let b := (k.derive 1).block 0
  (b.1 ^^^ b.2).toUInt8

/-- The key of a seed, of which the low 32 bits count. Seeds past 64 bits have none. -/
def ofSeed? (seed : Int) : Option Key :=
  if Word.fitsMachineInteger seed then some ⟨0, UInt32.ofInt seed⟩ else none

end Key

end Chip8.Random
