import Chip8.Word

namespace Chip8

abbrev memorySize : Nat := 4096

structure Memory where
  cells : Vector UInt8 memorySize
  deriving DecidableEq

namespace Memory

def blank : Memory :=
  ⟨Vector.replicate memorySize 0⟩

/-- The byte at an address, or `bus` outside memory. -/
def read (m : Memory) (bus : UInt8) (address : Nat) : UInt8 :=
  m.cells[address]?.getD bus

/-- Puts a byte at an address. Outside memory the byte is lost. -/
def write (m : Memory) (address : Nat) (byte : UInt8) : Memory :=
  ⟨m.cells.setIfInBounds address byte⟩

def writeAll (m : Memory) (address : Nat) : List UInt8 → Memory
  | [] => m
  | byte :: rest => (m.write address byte).writeAll (address + 1) rest

-- Irreducible, so that two runs of it are compared by what they are given and not byte by byte.
/-- Puts the first `count` of some bytes at an address and those that follow it. The places of the
others are written too, with the bytes that they read as. -/
@[irreducible] def writeFirst (m : Memory) (bus : UInt8) (address count : Nat)
    (bytes : List UInt8) : Memory :=
  m.writeAll address <| bytes.mapIdx fun i byte =>
    if i < count then byte else m.read bus (address + i)

def word (m : Memory) (bus : UInt8) (address : Nat) : UInt16 :=
  Word.ofBytes (m.read bus address) (m.read bus (address + 1))

/-- The address that a bound of a slice stands for. A negative one counts from the end. -/
def bound (i : Int) : Nat :=
  (if i < 0 then i + memorySize else i).toNat

def slice (m : Memory) (first last : Int) : List UInt8 :=
  (m.cells.toList.take (bound last)).drop (bound first)

theorem read_of_lt {m : Memory} {address : Nat} (h : address < memorySize) (bus : UInt8) :
    m.read bus address = m.cells[address] := by
  simp [read, h]

theorem read_of_le {m : Memory} {address : Nat} (h : memorySize ≤ address) (bus : UInt8) :
    m.read bus address = bus := by
  simp [read, Nat.not_lt.mpr h]

theorem getElem?_cells {m : Memory} {address : Nat} (h : address < memorySize) (bus : UInt8) :
    m.cells[address]? = some (m.read bus address) := by
  simp [read, h]

/-- In memory the byte of the bus is not seen. -/
theorem read_bus {m : Memory} {address : Nat} (h : address < memorySize) (bus bus' : UInt8) :
    m.read bus address = m.read bus' address := by
  rw [read_of_lt h, read_of_lt h]

theorem ext_read {m n : Memory} {bus : UInt8}
    (h : ∀ address, address < memorySize → m.read bus address = n.read bus address) : m = n := by
  obtain ⟨m⟩ := m
  obtain ⟨n⟩ := n
  congr 1
  apply Vector.ext
  intro address inside
  have same := h address inside
  rw [read_of_lt inside, read_of_lt inside] at same
  exact same

@[simp] theorem read_write (m : Memory) (bus : UInt8) (address other : Nat) (byte : UInt8) :
    (m.write address byte).read bus other =
      if address = other ∧ other < memorySize then byte else m.read bus other := by
  by_cases h : other < memorySize
  · simp [read, write, h, Vector.getElem_setIfInBounds]
  · simp [read, write, h]

/-- Bytes written from an address on are read back there, as far as they lie in memory. -/
theorem read_writeAll (m : Memory) (bus : UInt8) (address other : Nat) (bytes : List UInt8) :
    (m.writeAll address bytes).read bus other =
      if address ≤ other ∧ other < address + bytes.length ∧ other < memorySize then
        bytes.getD (other - address) 0
      else m.read bus other := by
  induction bytes generalizing m address with
  | nil =>
    have none : ¬ (address ≤ other ∧ other < address + 0 ∧ other < memorySize) := by omega
    simp only [writeAll, List.length_nil, if_neg none]
  | cons byte rest ih =>
    simp only [writeAll, ih, read_write, List.length_cons]
    by_cases here : address = other
    · subst here
      have past : ¬ (address + 1 ≤ address) := by omega
      by_cases inside : address < memorySize
      · simp [past, inside]
      · simp [inside]
    · by_cases later : address + 1 ≤ other
      · have split : other - address = (other - (address + 1)) + 1 := by omega
        have reach : address + 1 + rest.length = address + (rest.length + 1) := by omega
        have from_here : address ≤ other := by omega
        simp [here, later, split, reach, from_here]
      · have before : ¬ (address ≤ other) := by omega
        simp [here, later, before]

/-- Only the first bytes are written to any effect: the others are put back where they were read,
and those that were read past the end of memory are lost there. -/
theorem writeFirst_eq (m : Memory) (bus : UInt8) (address count : Nat) (bytes : List UInt8) :
    m.writeFirst bus address count bytes = m.writeAll address (bytes.take count) := by
  apply ext_read
  intro other inside
  rw [writeFirst, read_writeAll _ 0, read_writeAll _ 0, List.length_mapIdx, List.length_take]
  by_cases reached : address ≤ other ∧ other < address + bytes.length
  · obtain ⟨above, below⟩ := reached
    have place : other - address < bytes.length := by omega
    have back : address + (other - address) = other := by omega
    rw [if_pos ⟨above, below, inside⟩]
    by_cases first : other - address < count
    · have kept : address ≤ other ∧ other < address + min count bytes.length ∧
          other < memorySize := by omega
      rw [if_pos kept]
      simp [List.getD_eq_getElem?_getD, place, first]
    · rw [if_neg (by omega), read_bus inside 0 bus]
      simp [List.getD_eq_getElem?_getD, place, first, back]
  · rw [if_neg (by omega), if_neg (by omega)]

/-- Bytes written from an address on replace as many and leave the others in place. -/
theorem toList_writeAll {m : Memory} {address : Nat} {bytes : List UInt8}
    (fits : address + bytes.length ≤ memorySize) :
    (m.writeAll address bytes).cells.toList =
      m.cells.toList.take address ++ bytes ++ m.cells.toList.drop (address + bytes.length) := by
  induction bytes generalizing m address with
  | nil => simp only [writeAll, List.length_nil, Nat.add_zero, List.append_nil,
      List.take_append_drop]
  | cons byte rest ih =>
    simp only [List.length_cons] at fits
    have inside : address < m.cells.toList.length := by simp only [Vector.length_toList]; omega
    have reach : address + 1 + rest.length = address + (rest.length + 1) := by omega
    have written : (m.write address byte).cells.toList = m.cells.toList.set address byte := by
      simp only [write, Vector.toList_setIfInBounds]
    have before : (m.cells.toList.set address byte).take (address + 1) =
        m.cells.toList.take address ++ [byte] := by
      rw [List.take_add_one, List.take_set_of_le (Nat.le_refl _), List.getElem?_set_self inside]
      rfl
    have behind : (m.cells.toList.set address byte).drop (address + 1 + rest.length) =
        m.cells.toList.drop (address + 1 + rest.length) :=
      List.drop_set_of_lt (by omega)
    rw [writeAll, ih (by omega), written, before, behind, reach, List.length_cons,
      List.append_assoc _ [byte], List.singleton_append]

end Memory

end Chip8
