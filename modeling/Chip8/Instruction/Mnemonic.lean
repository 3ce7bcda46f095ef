import Chip8.Instruction.Basic
import Chip8.Text.Hex

namespace Chip8

structure Mnemonic where
  name : String
  operands : List String
  deriving DecidableEq, Repr

namespace Mnemonic

def text (m : Mnemonic) : String :=
  if m.operands.isEmpty then m.name else m.name ++ " " ++ ", ".intercalate m.operands

def register (x : Nibble) : String :=
  "v" ++ Hex.short x.val

def byte (b : UInt8) : String :=
  Hex.marked b.toNat

def address (a : UInt16) : String :=
  Hex.marked a.toNat

end Mnemonic

open Mnemonic

/-- The mnemonic of an operation on two registers. Shifts show one of them. -/
def Arithmetic.mnemonic (op : Arithmetic) (x y : Nibble) : Mnemonic :=
  match op with
  | assign => ⟨"LD", [register x, register y]⟩
  | or => ⟨"OR", [register x, register y]⟩
  | and => ⟨"AND", [register x, register y]⟩
  | xor => ⟨"XOR", [register x, register y]⟩
  | add => ⟨"ADD", [register x, register y]⟩
  | subtract => ⟨"SUB", [register x, register y]⟩
  | shiftRight => ⟨"SHR", [register x]⟩
  | subtractFrom => ⟨"SUBN", [register x, register y]⟩
  | shiftLeft => ⟨"SHL", [register x]⟩

namespace Instruction

def mnemonic : Instruction → Mnemonic
  | clearScreen => ⟨"CLS", []⟩
  | ret => ⟨"RETURN", []⟩
  | jump target => ⟨"JUMP", [address target]⟩
  | call target => ⟨"CALL", [address target]⟩
  | skipEqual x b => ⟨"SE", [register x, byte b]⟩
  | skipNotEqual x b => ⟨"SNE", [register x, byte b]⟩
  | skipSame x y => ⟨"SE", [register x, register y]⟩
  | set x b => ⟨"LD", [register x, byte b]⟩
  | addTo x b => ⟨"ADD", [register x, byte b]⟩
  | arithmetic op x y => op.mnemonic x y
  | skipDifferent x y => ⟨"SNE", [register x, register y]⟩
  | setIndex a => ⟨"LD", ["I", address a]⟩
  | jumpOffset base => ⟨"JP", ["v0", address base]⟩
  | random x b => ⟨"RND", [register x, byte b]⟩
  | draw x y height => ⟨"DRW", [register x, register y, Hex.marked height.val]⟩
  | skipPressed x => ⟨"SKP", [register x]⟩
  | skipReleased x => ⟨"SKNP", [register x]⟩
  | readDelay x => ⟨"LD", [register x, "DT"]⟩
  | awaitKey x => ⟨"LD", [register x, "K"]⟩
  | setDelay x => ⟨"LD", ["DT", register x]⟩
  | setSound x => ⟨"LD", ["ST", register x]⟩
  | addToIndex x => ⟨"ADD", ["I", register x]⟩
  | glyph x => ⟨"LD", ["F", register x]⟩
  | decimal x => ⟨"LD", ["B", register x]⟩
  | store x => ⟨"LD", ["[I]", register x]⟩
  | load x => ⟨"LD", [register x, "[I]"]⟩
  | unknown word => ⟨Hex.marked word.toNat, []⟩

def text (i : Instruction) : String :=
  i.mnemonic.text

/-- What an integer of any size is listed as. One of no kind is written in full, with its sign. -/
def textOfInt (i : Int) : String :=
  match Kind.ofInt? i with
  | some k => (k.withOperands (.ofInt i)).text
  | none => Hex.marked i

end Instruction

end Chip8
