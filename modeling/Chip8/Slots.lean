namespace Chip8

@[simp] theorem get_eq_getElem {α : Type} {n : Nat} (slots : Vector α n) (i : Fin n) :
    slots.get i = slots[i] := rfl

end Chip8
