import Chip8.Slots
import Chip8.Word

namespace Chip8

abbrev stackSize : Nat := 16

/-- Return addresses, the oldest in slot 0, and a pointer one past the newest. A push on a full
stack stores nothing and still moves the pointer: what that means is for the caller to say. -/
structure CallStack where
  slots : Vector UInt16 stackSize
  pointer : Nat
  deriving DecidableEq, Repr

namespace CallStack

def empty : CallStack :=
  ⟨Vector.replicate stackSize 0, 0⟩

def isFull (s : CallStack) : Bool :=
  stackSize ≤ s.pointer

def isEmpty (s : CallStack) : Bool :=
  s.pointer == 0

def push (s : CallStack) (address : UInt16) : CallStack :=
  ⟨s.slots.setIfInBounds s.pointer address, s.pointer + 1⟩

/-- The address that a pop gives: the slot below the pointer, kept within the stack. -/
def top (s : CallStack) : UInt16 :=
  s.slots.get (Nibble.ofNat (min (s.pointer - 1) (stackSize - 1)))

/-- Takes the top away and clears its slot. -/
def pop (s : CallStack) : CallStack :=
  ⟨s.slots.setIfInBounds (s.pointer - 1) 0, s.pointer - 1⟩

/-- A stack of given addresses, the oldest first. -/
def ofList (addresses : List UInt16) : CallStack :=
  ⟨Vector.ofFn fun i => addresses.getD i 0, addresses.length⟩

/-- The addresses on the stack, the newest first. -/
def toList (s : CallStack) : List UInt16 :=
  (s.slots.toList.take s.pointer).reverse

@[simp] theorem toList_empty : empty.toList = [] := rfl

theorem toList_push {s : CallStack} (h : s.pointer < stackSize) (address : UInt16) :
    (s.push address).toList = address :: s.toList := by
  have grown : (s.slots.toList.set s.pointer address).take (s.pointer + 1) =
      s.slots.toList.take s.pointer ++ [address] := by
    rw [List.take_add_one, List.take_set_of_le (Nat.le_refl _),
      List.getElem?_set_self (by simpa using h)]
    rfl
  simp [toList, push, grown]

theorem toList_pop {s : CallStack} (full : s.pointer ≤ stackSize) (held : 0 < s.pointer) :
    s.toList = s.top :: s.pop.toList := by
  have below : s.pointer - 1 < stackSize := by omega
  have kept : (s.slots.toList.set (s.pointer - 1) 0).take (s.pointer - 1) =
      s.slots.toList.take (s.pointer - 1) :=
    List.take_set_of_le (Nat.le_refl _)
  have place : (Nibble.ofNat (min (s.pointer - 1) (stackSize - 1))).val = s.pointer - 1 := by
    simp only [Nibble.ofNat, Fin.val_ofNat, stackSize] at *
    omega
  have top : s.slots.toList[s.pointer - 1]? = some s.top := by
    simp only [CallStack.top, get_eq_getElem, Fin.getElem_fin, place]
    simp [below]
  have last : s.slots.toList.take s.pointer = s.slots.toList.take (s.pointer - 1) ++ [s.top] := by
    have next : s.pointer = s.pointer - 1 + 1 := by omega
    rw [next, List.take_add_one, Nat.add_sub_cancel, top]
    rfl
  simp [toList, pop, kept, last]

/-- A stack with its pointer within it and zero in the slots that are not in use. -/
structure Clean (s : CallStack) : Prop where
  room : s.pointer ≤ stackSize
  free : ∀ i (h : i < stackSize), s.pointer ≤ i → s.slots[i] = 0

variable {s t : CallStack}

theorem Clean.empty : empty.Clean :=
  ⟨Nat.zero_le _, fun _ h _ => Vector.getElem_replicate h⟩

theorem Clean.push (hs : s.Clean) (full : s.isFull = false) (address : UInt16) :
    (s.push address).Clean := by
  have hp : s.pointer < stackSize := by simpa [isFull] using full
  refine ⟨hp, ?_⟩
  intro i h hi
  have hi : s.pointer + 1 ≤ i := hi
  simp only [CallStack.push, Vector.getElem_setIfInBounds]
  rw [if_neg (by omega)]
  exact hs.free i h (by omega)

theorem Clean.pop (hs : s.Clean) : s.pop.Clean := by
  refine ⟨Nat.le_trans (Nat.sub_le _ 1) hs.room, ?_⟩
  intro i h hi
  have hi : s.pointer - 1 ≤ i := hi
  simp only [CallStack.pop, Vector.getElem_setIfInBounds]
  split
  · rfl
  · exact hs.free i h (by omega)

theorem Clean.length_toList (hs : s.Clean) : s.toList.length = s.pointer := by
  have room := hs.room
  simp only [toList, List.length_reverse, List.length_take, Vector.length_toList]
  omega

/-- A clean stack is told by its addresses. -/
theorem Clean.ofList_toList (hs : s.Clean) : ofList s.toList.reverse = s := by
  have length := hs.length_toList
  rw [← List.length_reverse] at length
  obtain ⟨slots, pointer⟩ := s
  simp only [ofList, mk.injEq]
  refine ⟨?_, length⟩
  ext i hi
  simp only [Vector.getElem_ofFn, toList, List.reverse_reverse]
  by_cases used : i < pointer
  · simp [List.getD_eq_getElem?_getD, used, hi]
  · have zero := hs.free i hi (Nat.le_of_not_lt used)
    have past : (slots.toList.take pointer).length ≤ i := by
      rw [List.length_take]
      omega
    rw [List.getD_eq_getElem?_getD, List.getElem?_eq_none past, zero]
    rfl

theorem Clean.ext (hs : s.Clean) (ht : t.Clean) (same : s.toList = t.toList) : s = t := by
  rw [← hs.ofList_toList, same, ht.ofList_toList]

end CallStack

end Chip8
