namespace Chip8.Fixed

/-- The quotient of two natural numbers rounded to the nearest one, halves to the even one. -/
def roundDiv (num den : Nat) : Nat :=
  let q := num / den
  let r := num % den
  if 2 * r < den || (2 * r == den && q % 2 == 0) then q else q + 1

/-- A finite magnitude `significand * 2 ^ (exponent - 1075)` in hundredths. -/
def hundredths (significand exponent : Nat) : Nat :=
  if 1075 ≤ exponent then (significand * 100) <<< (exponent - 1075)
  else roundDiv (significand * 100) (1 <<< (1075 - exponent))

def pointed (h : Nat) : List Char :=
  Nat.toDigits 10 (h / 100) ++ '.' :: (Nat.toDigits 10 (h % 100)).leftpad 2 '0'

/-- A magnitude from the exponent and fraction fields of its binary form. -/
def magnitude (exponent fraction : Nat) : List Char :=
  if exponent = 0x7FF then (if fraction = 0 then "inf" else "nan").toList
  else if exponent = 0 then pointed (hundredths fraction 1)
  else pointed (hundredths (fraction + 0x10000000000000) exponent)

/-- What is rounded is the exact value, so that halves arise only where it lies exactly between two
hundredths. The sign is kept even where all digits are zero. -/
def text (width : Nat) (x : Float) : String :=
  let bits := x.toBits.toNat
  let exponent := (bits >>> 52) % 0x800
  let digits := magnitude exponent (bits % 0x10000000000000)
  let negative := bits >>> 63 = 1 ∧ ¬ x.isNaN
  String.ofList ((if negative then '-' :: digits else digits).leftpad width ' ')

end Chip8.Fixed
