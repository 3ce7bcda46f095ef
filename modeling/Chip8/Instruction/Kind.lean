import Chip8.Arithmetic
import Chip8.Word

namespace Chip8

/-- What an instruction does, operands left aside. -/
inductive Kind where
  | clearScreen | ret | jump | call
  | skipEqual | skipNotEqual | skipSame
  | set | addTo
  | arithmetic (op : Arithmetic)
  | skipDifferent
  | setIndex | jumpOffset | random | draw
  | skipPressed | skipReleased
  | readDelay | awaitKey | setDelay | setSound
  | addToIndex | glyph | decimal | store | load
  deriving DecidableEq, Repr

/-- The bits by which words of one kind are known. -/
structure Pattern where
  mask : UInt16
  value : UInt16
  deriving DecidableEq, Repr

namespace Pattern

def matchesWord (p : Pattern) (w : UInt16) : Bool :=
  w &&& p.mask == p.value

def matchesInt (p : Pattern) (i : Int) : Bool :=
  Word.lowBits p.mask.toNat i == p.value.toNat

end Pattern

namespace Kind

/-- Every kind, in the order of their numbers. -/
def all : List Kind :=
  [clearScreen, ret, jump, call, skipEqual, skipNotEqual, skipSame, set, addTo,
    arithmetic .assign, arithmetic .or, arithmetic .and, arithmetic .xor, arithmetic .add,
    arithmetic .subtract, arithmetic .shiftRight, arithmetic .subtractFrom, arithmetic .shiftLeft,
    skipDifferent, setIndex, jumpOffset, random, draw, skipPressed, skipReleased, readDelay,
    awaitKey, setDelay, setSound, addToIndex, glyph, decimal, store, load]

/-- The pattern of a kind. The last nibble of the two register comparisons is free. -/
def pattern : Kind → Pattern
  | clearScreen => ⟨0xF0FF, 0x00E0⟩
  | ret => ⟨0xF0FF, 0x00EE⟩
  | jump => ⟨0xF000, 0x1000⟩
  | call => ⟨0xF000, 0x2000⟩
  | skipEqual => ⟨0xF000, 0x3000⟩
  | skipNotEqual => ⟨0xF000, 0x4000⟩
  | skipSame => ⟨0xF000, 0x5000⟩
  | set => ⟨0xF000, 0x6000⟩
  | addTo => ⟨0xF000, 0x7000⟩
  | arithmetic .assign => ⟨0xF00F, 0x8000⟩
  | arithmetic .or => ⟨0xF00F, 0x8001⟩
  | arithmetic .and => ⟨0xF00F, 0x8002⟩
  | arithmetic .xor => ⟨0xF00F, 0x8003⟩
  | arithmetic .add => ⟨0xF00F, 0x8004⟩
  | arithmetic .subtract => ⟨0xF00F, 0x8005⟩
  | arithmetic .shiftRight => ⟨0xF00F, 0x8006⟩
  | arithmetic .subtractFrom => ⟨0xF00F, 0x8007⟩
  | arithmetic .shiftLeft => ⟨0xF00F, 0x800E⟩
  | skipDifferent => ⟨0xF000, 0x9000⟩
  | setIndex => ⟨0xF000, 0xA000⟩
  | jumpOffset => ⟨0xF000, 0xB000⟩
  | random => ⟨0xF000, 0xC000⟩
  | draw => ⟨0xF000, 0xD000⟩
  | skipPressed => ⟨0xF0FF, 0xE09E⟩
  | skipReleased => ⟨0xF0FF, 0xE0A1⟩
  | readDelay => ⟨0xF0FF, 0xF007⟩
  | awaitKey => ⟨0xF0FF, 0xF00A⟩
  | setDelay => ⟨0xF0FF, 0xF015⟩
  | setSound => ⟨0xF0FF, 0xF018⟩
  | addToIndex => ⟨0xF0FF, 0xF01E⟩
  | glyph => ⟨0xF0FF, 0xF029⟩
  | decimal => ⟨0xF0FF, 0xF033⟩
  | store => ⟨0xF0FF, 0xF055⟩
  | load => ⟨0xF0FF, 0xF065⟩

def ofWord? (w : UInt16) : Option Kind :=
  all.find? fun k => k.pattern.matchesWord w

def ofInt? (i : Int) : Option Kind :=
  all.find? fun k => k.pattern.matchesInt i

def number (k : Kind) : Nat :=
  all.idxOf k

def unknownNumber : Nat :=
  all.length

end Kind

end Chip8
