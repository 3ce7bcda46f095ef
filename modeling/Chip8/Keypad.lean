import Chip8.Slots
import Chip8.Word

namespace Chip8

abbrev Keypad := Vector Bool 16

structure KeyError where
  given : Int
  deriving DecidableEq, Repr

def KeyError.message (e : KeyError) : String :=
  s!"Key must be in 0x0..0xF, got {e.given}"

namespace Keypad

def released : Keypad :=
  Vector.replicate 16 false

def key (number : Int) : Except KeyError (Nibble) :=
  if h : 0 ≤ number ∧ number < 16 then .ok ⟨number.toNat, by omega⟩ else .error ⟨number⟩

def pressed (k : Keypad) : List (Nibble) :=
  (List.finRange 16).filter k.get

def latch (k : Keypad) (key : Nibble) (isDown : Bool) : Keypad :=
  k.setIfInBounds key.val isDown

def lowest? (k : Keypad) : Option (Nibble) :=
  (List.finRange 16).find? k.get

theorem get_released (key : Nibble) : released.get key = false :=
  Vector.getElem_replicate key.isLt

theorem get_latch (k : Keypad) (key other : Nibble) (isDown : Bool) :
    (k.latch key isDown).get other = if key = other then isDown else k.get other := by
  simp only [latch, get_eq_getElem, Fin.getElem_fin, Vector.getElem_setIfInBounds, Fin.ext_iff]

theorem lowest?_eq_none {k : Keypad} : k.lowest? = none ↔ ∀ key, k.get key ≠ true := by
  simp [lowest?]

/-- The lowest pressed key is pressed, and no key below it is. -/
theorem lowest?_eq_some {k : Keypad} {key : Nibble} :
    k.lowest? = some key ↔ k.get key = true ∧ ∀ other, k.get other = true → key ≤ other := by
  simp only [lowest?, List.find?_eq_some_iff_getElem, List.getElem_finRange, List.length_finRange]
  constructor
  · rintro ⟨pressed, i, hi, rfl, before⟩
    refine ⟨pressed, ?_⟩
    intro other held
    apply Fin.not_lt.mp
    intro lower
    have released := before other.val lower
    simp only [Fin.cast_mk, Fin.eta, held, Bool.not_true, Bool.false_eq_true] at released
  · rintro ⟨pressed, least⟩
    refine ⟨pressed, key.val, key.isLt, rfl, ?_⟩
    intro j hj
    rw [Bool.not_eq_true', Bool.eq_false_iff]
    intro held
    have low := least _ held
    exact absurd hj (Nat.not_lt.mpr low)

end Keypad

end Chip8
