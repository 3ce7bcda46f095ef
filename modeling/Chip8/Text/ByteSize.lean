import Chip8.Text.Fixed

namespace Chip8.ByteSize

def units : List String :=
  ["bytes", "KiB", "MiB", "GiB", "TiB", "PiB", "EiB"]

def pointed (places n : Nat) : String :=
  let digits := Nat.toDigits 10 n
  let whole := digits.length - places
  String.ofList (digits.take whole ++ '.' :: digits.drop whole)

/-- A quotient of at least one, with three digits or all before the point. -/
def quotient (num den : Nat) : String :=
  let fine := Fixed.roundDiv (num * 100) den
  let coarse := Fixed.roundDiv (num * 10) den
  if fine < 1000 then pointed 2 fine
  else if coarse < 1000 then pointed 1 coarse
  else pointed 0 (Fixed.roundDiv num den)

/-- The place of the unit that an amount is told in. An amount that rounds to 1024 of a unit is
told in the next one. -/
def rank (bytes : Nat) : Nat :=
  let rank := bytes.log2 / 10
  min (units.length - 1) <|
    if Fixed.roundDiv bytes (1 <<< (10 * rank)) = 1024 then rank + 1 else rank

def text (bytes : Nat) : String :=
  let rank := rank bytes
  let unit := units.getD rank ""
  if rank = 0 then s!"{bytes} {unit}"
  else
    let amount := quotient bytes (1 <<< (10 * rank))
    s!"{amount} {unit}"

end Chip8.ByteSize
