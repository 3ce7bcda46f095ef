import Chip8.Instruction.Kind

namespace Chip8

inductive Instruction where
  | clearScreen
  | ret
  | jump (target : UInt16)
  | call (target : UInt16)
  | skipEqual (x : Nibble) (byte : UInt8)
  | skipNotEqual (x : Nibble) (byte : UInt8)
  | skipSame (x y : Nibble)
  | set (x : Nibble) (byte : UInt8)
  | addTo (x : Nibble) (byte : UInt8)
  | arithmetic (op : Arithmetic) (x y : Nibble)
  | skipDifferent (x y : Nibble)
  | setIndex (address : UInt16)
  | jumpOffset (base : UInt16)
  | random (x : Nibble) (byte : UInt8)
  | draw (x y height : Nibble)
  | skipPressed (x : Nibble)
  | skipReleased (x : Nibble)
  | readDelay (x : Nibble)
  | awaitKey (x : Nibble)
  | setDelay (x : Nibble)
  | setSound (x : Nibble)
  | addToIndex (x : Nibble)
  | glyph (x : Nibble)
  | decimal (x : Nibble)
  | store (x : Nibble)
  | load (x : Nibble)
  | unknown (word : UInt16)
  deriving DecidableEq, Repr

/-- The fields from which operands are taken. They overlap. -/
structure Operands where
  x : Nibble
  y : Nibble
  n : Nibble
  kk : UInt8
  nnn : UInt16

def Operands.ofWord (w : UInt16) : Operands :=
  ⟨Word.x w, Word.y w, Word.n w, Word.kk w, Word.nnn w⟩

/-- The fields of an integer of any size, each read under a mask of its own. -/
def Operands.ofInt (i : Int) : Operands where
  x := Nibble.ofNat (Word.lowBits 0x0F00 i >>> 8)
  y := Nibble.ofNat (Word.lowBits 0x00F0 i >>> 4)
  n := Nibble.ofNat (Word.lowBits 0x000F i)
  kk := UInt8.ofNat (Word.lowBits 0x00FF i)
  nnn := UInt16.ofNat (Word.lowBits 0x0FFF i)

/-- The instruction of a kind, with the operands that it has and no others. -/
def Kind.withOperands (o : Operands) : Kind → Instruction
  | clearScreen => .clearScreen
  | ret => .ret
  | jump => .jump o.nnn
  | call => .call o.nnn
  | skipEqual => .skipEqual o.x o.kk
  | skipNotEqual => .skipNotEqual o.x o.kk
  | skipSame => .skipSame o.x o.y
  | set => .set o.x o.kk
  | addTo => .addTo o.x o.kk
  | arithmetic op => .arithmetic op o.x o.y
  | skipDifferent => .skipDifferent o.x o.y
  | setIndex => .setIndex o.nnn
  | jumpOffset => .jumpOffset o.nnn
  | random => .random o.x o.kk
  | draw => .draw o.x o.y o.n
  | skipPressed => .skipPressed o.x
  | skipReleased => .skipReleased o.x
  | readDelay => .readDelay o.x
  | awaitKey => .awaitKey o.x
  | setDelay => .setDelay o.x
  | setSound => .setSound o.x
  | addToIndex => .addToIndex o.x
  | glyph => .glyph o.x
  | decimal => .decimal o.x
  | store => .store o.x
  | load => .load o.x

def Kind.instruction (w : UInt16) (k : Kind) : Instruction :=
  k.withOperands (.ofWord w)

namespace Instruction

def ofWord (w : UInt16) : Instruction :=
  match Kind.ofWord? w with
  | some k => k.instruction w
  | none => .unknown w

end Instruction

end Chip8
