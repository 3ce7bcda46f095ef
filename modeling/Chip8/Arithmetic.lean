namespace Chip8

inductive Arithmetic where
  | assign | or | and | xor | add | subtract | shiftRight | subtractFrom | shiftLeft
  deriving DecidableEq, Repr

namespace Arithmetic

def flag (b : Bool) : UInt8 :=
  if b then 1 else 0

/-- The result and the flag. Subtraction sets the flag only where the first operand is strictly
larger, addition where the sum passes a byte, and a shift keeps the bit that falls out. -/
def apply (a b : UInt8) : Arithmetic → UInt8 × Option UInt8
  | assign => (b, none)
  | or => (a ||| b, none)
  | and => (a &&& b, none)
  | xor => (a ^^^ b, none)
  | add => (a + b, some (flag (255 < a.toNat + b.toNat)))
  | subtract => (a - b, some (flag (b < a)))
  | shiftRight => (a >>> 1, some (a &&& 1))
  | subtractFrom => (b - a, some (flag (a < b)))
  | shiftLeft => (a <<< 1, some (a >>> 7))

theorem toNat_flag (b : Bool) : (flag b).toNat = b.toNat := by
  cases b <;> rfl

theorem toNat_add_carry (a b : UInt8) :
    256 * (flag (255 < a.toNat + b.toNat)).toNat + (a + b).toNat = a.toNat + b.toNat := by
  have ha := a.toNat_lt
  have hb := b.toNat_lt
  rw [toNat_flag, UInt8.toNat_add]
  by_cases carry : 255 < a.toNat + b.toNat
  · simp only [carry, decide_true, Bool.toNat_true]
    omega
  · simp only [carry, decide_false, Bool.toNat_false]
    omega

theorem toInt_sub (a b : UInt8) :
    ((a - b).toNat : Int) = ((a.toNat : Int) - b.toNat) % 256 := by
  have ha := a.toNat_lt
  have hb := b.toNat_lt
  rw [UInt8.toNat_sub]
  omega

theorem toNat_flag_lt (a b : UInt8) : (flag (a < b)).toNat = 1 ↔ a.toNat < b.toNat := by
  rw [toNat_flag, Bool.toNat_eq_one, decide_eq_true_iff, UInt8.lt_iff_toNat_lt]

theorem toNat_shiftRight {places : UInt8} (h : places.toNat < 8) (a : UInt8) :
    (a >>> places).toNat = a.toNat >>> places.toNat := by
  rw [UInt8.toNat_shiftRight, Nat.mod_eq_of_lt h]

theorem toNat_and_one (a : UInt8) : (a &&& 1).toNat = a.toNat % 2 := by
  rw [UInt8.toNat_and]
  exact Nat.and_one_is_mod a.toNat

theorem toNat_shiftLeft_one (a : UInt8) : (a <<< 1).toNat = 2 * a.toNat % 256 := by
  rw [UInt8.toNat_shiftLeft, Nat.mul_comm]
  exact congrArg (· % 256) (Nat.shiftLeft_eq a.toNat 1)

end Arithmetic

end Chip8
