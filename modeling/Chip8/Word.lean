namespace Chip8

/-- Four bits: the number of a register or a key, or the height of a sprite. -/
abbrev Nibble := Fin 16

def Nibble.ofNat (n : Nat) : Nibble :=
  Fin.ofNat 16 n

theorem Nibble.val_ofNat {n : Nat} (h : n < 16) : (Nibble.ofNat n).val = n :=
  Nat.mod_eq_of_lt h

theorem Nibble.ofNat_val (x : Nibble) : Nibble.ofNat x.val = x :=
  Fin.ext (val_ofNat x.isLt)

namespace Word

def family (w : UInt16) : Nibble :=
  Nibble.ofNat (w.toNat / 0x1000)

def x (w : UInt16) : Nibble :=
  Nibble.ofNat (w.toNat / 0x100)

def y (w : UInt16) : Nibble :=
  Nibble.ofNat (w.toNat / 0x10)

def n (w : UInt16) : Nibble :=
  Nibble.ofNat w.toNat

def kk (w : UInt16) : UInt8 :=
  w.toUInt8

def nnn (w : UInt16) : UInt16 :=
  w &&& 0xFFF

/-- Two bytes as one word, the first one high. -/
def ofBytes (high low : UInt8) : UInt16 :=
  (high.toUInt16 <<< 8) ||| low.toUInt16

inductive RangeError where
  | outside (given : Int)
  | beyondMachineInteger
  deriving DecidableEq, Repr

def fitsMachineInteger (i : Int) : Bool :=
  -0x8000000000000000 ≤ i && i < 0x8000000000000000

structure WideError where
  given : Int
  deriving DecidableEq, Repr

def fitsSigned32 (i : Int) : Bool :=
  -0x80000000 ≤ i && i < 0x80000000

/-- Reads a word. Integers past 64 bits are refused before the range of words is looked at. -/
def ofInt (i : Int) : Except RangeError UInt16 :=
  if !fitsMachineInteger i then .error .beyondMachineInteger
  else if 0 ≤ i && i < 0x10000 then .ok (UInt16.ofInt i)
  else .error (.outside i)

/-- The bits of an integer of any size and sign under a mask. A negative integer has ones all the
way up, so that `-1` shows the whole mask. -/
def lowBits (mask : Nat) : Int → Nat
  | .ofNat a => a &&& mask
  | .negSucc a => mask ^^^ (a &&& mask)

def unionBits : Int → Int → Int
  | .ofNat a, .ofNat b => .ofNat (a ||| b)
  | .ofNat a, .negSucc b => .negSucc (b ^^^ (a &&& b))
  | .negSucc a, .ofNat b => .negSucc (a ^^^ (a &&& b))
  | .negSucc a, .negSucc b => .negSucc (a &&& b)

theorem toNat_ofBytes (high low : UInt8) :
    (ofBytes high low).toNat = high.toNat * 0x100 ||| low.toNat := by
  have hh := high.toNat_lt
  simp only [ofBytes, UInt16.toNat_or, UInt16.toNat_shiftLeft, UInt8.toNat_toUInt16]
  congr 1
  rw [show (8 : UInt16).toNat % 16 = 8 from rfl, Nat.shiftLeft_eq]
  omega

end Word

end Chip8
