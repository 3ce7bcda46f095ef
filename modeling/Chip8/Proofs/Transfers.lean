import Chip8.Proofs.Footprints

namespace Chip8.Machine

variable {m n : Machine} {w : UInt16} {x : Nibble} {address : Nat}

/-- The first registers, up to the given one. -/
def registersUpTo (m : Machine) (x : Nibble) : List UInt8 :=
  m.registers.toList.take (x.val + 1)

theorem length_registersUpTo (m : Machine) (x : Nibble) :
    (m.registersUpTo x).length = x.val + 1 := by
  have := x.isLt
  simp only [registersUpTo, List.length_take, Vector.length_toList]
  omega

theorem getD_registersUpTo {r : Nibble} (h : r ≤ x) (m : Machine) :
    (m.registersUpTo x).getD r.val 0 = m.register r := by
  have := r.isLt
  have : r.val < x.val + 1 := Nat.lt_succ_of_le h
  simp [registersUpTo, register, List.getD_eq_getElem?_getD, this]

/-- An address within reach of the index register belongs to one of the registers. -/
theorem operand_of_within {base : Nat} (within : base ≤ address ∧ address ≤ base + x.val) :
    (Nibble.ofNat (address - base)).val = address - base ∧ Nibble.ofNat (address - base) ≤ x := by
  have place : (Nibble.ofNat (address - base)).val = address - base :=
    Nibble.val_ofNat (by omega)
  refine ⟨place, ?_⟩
  rw [Fin.le_def, place]
  omega

theorem execute_store (word : w &&& 0xF0FF = 0xF055)
    (fits : m.index.toNat + (Word.x w).val ≤ 0xFFF) :
    m.execute w = .silent (({ m with
      opcode := w
      memory := m.memory.writeAll m.index.toNat (m.registersUpTo (Word.x w)) } :
        Machine).advance 2) := by
  have shown : Kind.store.pattern.matchesWord w = true := beq_iff_eq.mpr word
  apply execute_of_matches shown
  simp only [Kind.instruction, Kind.withOperands, Operands.ofWord, performOn, Memory.writeFirst_eq]
  rw [if_neg (by simp only [memorySize]; omega)]
  rfl

theorem execute_load (word : w &&& 0xF0FF = 0xF065)
    (fits : m.index.toNat + (Word.x w).val ≤ 0xFFF) :
    m.execute w = .silent (({ m with
      opcode := w
      registers := m.loadedOn 0 (Word.x w) } : Machine).advance 2) := by
  have shown : Kind.load.pattern.matchesWord w = true := beq_iff_eq.mpr word
  apply execute_of_matches shown
  simp only [Kind.instruction, Kind.withOperands, Operands.ofWord, performOn]
  rw [if_neg (by simp only [memorySize]; omega)]
  rfl

theorem execute_decimal (word : w &&& 0xF0FF = 0xF033) (fits : m.index.toNat + 2 ≤ 0xFFF) :
    m.execute w = .silent (({ m with
      opcode := w
      memory := m.memory.writeAll m.index.toNat (decimalDigits (m.register (Word.x w))) } :
        Machine).advance 2) := by
  have shown : Kind.decimal.pattern.matchesWord w = true := beq_iff_eq.mpr word
  apply execute_of_matches shown
  simp only [Kind.instruction, Kind.withOperands, Operands.ofWord, performOn]
  rw [if_neg (by simp only [memorySize]; omega)]
  rfl

/-- A byte within reach shows its register after a store, and any other stays. -/
theorem read_store (word : w &&& 0xF0FF = 0xF055)
    (fits : m.index.toNat + (Word.x w).val ≤ 0xFFF) (inside : address < memorySize) :
    (m.execute w).value.memory.read 0 address =
      if m.index.toNat ≤ address ∧ address ≤ m.index.toNat + (Word.x w).val then
        m.register (Nibble.ofNat (address - m.index.toNat))
      else m.memory.read 0 address := by
  rw [execute_store word fits]
  refine (Memory.read_writeAll _ 0 _ address _).trans ?_
  rw [length_registersUpTo]
  by_cases within : m.index.toNat ≤ address ∧ address ≤ m.index.toNat + (Word.x w).val
  · obtain ⟨place, low⟩ := operand_of_within within
    rw [if_pos ⟨within.1, by omega, inside⟩, if_pos within, ← getD_registersUpTo low, place]
  · rw [if_neg (by omega), if_neg within]

theorem register_load (word : w &&& 0xF0FF = 0xF065)
    (fits : m.index.toNat + (Word.x w).val ≤ 0xFFF) (r : Nibble) :
    (m.execute w).value.register r =
      if r ≤ Word.x w then m.memory.read 0 (m.index.toNat + r.val) else m.register r := by
  rw [execute_load word fits]
  change (m.loadedOn 0 (Word.x w)).get r = _
  simp [loadedOn]

theorem read_decimal (word : w &&& 0xF0FF = 0xF033) (fits : m.index.toNat + 2 ≤ 0xFFF)
    (inside : address < memorySize) :
    (m.execute w).value.memory.read 0 address =
      if m.index.toNat ≤ address ∧ address ≤ m.index.toNat + 2 then
        (decimalDigits (m.register (Word.x w))).getD (address - m.index.toNat) 0
      else m.memory.read 0 address := by
  rw [execute_decimal word fits]
  refine (Memory.read_writeAll _ 0 _ address _).trans ?_
  have reach : (decimalDigits (m.register (Word.x w))).length = 3 := rfl
  rw [reach]
  by_cases within : m.index.toNat ≤ address ∧ address ≤ m.index.toNat + 2
  · rw [if_pos (by omega), if_pos within]
  · rw [if_neg (by omega), if_neg within]

theorem read_store_register (word : w &&& 0xF0FF = 0xF055)
    (fits : m.index.toNat + (Word.x w).val ≤ 0xFFF) {r : Nibble} (low : r ≤ Word.x w) :
    (m.execute w).value.memory.read 0 (m.index.toNat + r.val) = m.register r := by
  rw [Fin.le_def] at low
  have inside : m.index.toNat + r.val < memorySize := by
    simp only [memorySize]
    omega
  rw [read_store word fits inside, if_pos (by omega), Nat.add_sub_cancel_left,
    Nibble.ofNat_val]

/-- Registers copied to memory and back are what they were, whatever else has changed. -/
theorem register_load_store (word : w &&& 0xF0FF = 0xF055)
    (fits : m.index.toNat + (Word.x w).val ≤ 0xFFF) {v : UInt16}
    (memory : n.memory = (m.execute w).value.memory) (index : n.index = m.index)
    (word' : v &&& 0xF0FF = 0xF065) (same : Word.x v = Word.x w) {r : Nibble}
    (low : r ≤ Word.x w) : (n.execute v).value.register r = m.register r := by
  rw [register_load word' (by rw [index, same]; exact fits), if_pos (same ▸ low), memory, index]
  exact read_store_register word fits low

/-- Memory copied to registers and back is what it was. -/
theorem memory_store_load (word : w &&& 0xF0FF = 0xF065)
    (fits : m.index.toNat + (Word.x w).val ≤ 0xFFF) {v : UInt16}
    (word' : v &&& 0xF0FF = 0xF055) (same : Word.x v = Word.x w) :
    ((m.execute w).value.execute v).value.memory = m.memory := by
  have index : (m.execute w).value.index = m.index := by rw [execute_load word fits]; rfl
  have memory : (m.execute w).value.memory = m.memory := by rw [execute_load word fits]; rfl
  apply @Memory.ext_read _ _ 0
  intro address inside
  rw [read_store word' (by rw [index, same]; exact fits) inside, index, memory, same]
  split
  · rename_i within
    obtain ⟨place, low⟩ := operand_of_within within
    rw [register_load word fits, if_pos low, place, Nat.add_sub_cancel' within.1]
  · rfl

theorem decimalDigits_sum (byte : UInt8) : ∃ hundreds tens units,
    decimalDigits byte = [hundreds, tens, units] ∧ hundreds ≤ 9 ∧ tens ≤ 9 ∧ units ≤ 9 ∧
      100 * hundreds.toNat + 10 * tens.toNat + units.toNat = byte.toNat := by
  have := byte.toNat_lt
  refine ⟨_, _, _, rfl, ?_⟩
  simp only [UInt8.le_iff_toNat_le, UInt8.toNat_div, UInt8.toNat_mod, UInt8.reduceToNat]
  omega

/-- Where the last byte lies in memory, a word that stores registers puts each into its byte and
keeps all other bytes, a word that loads them takes each from its byte and keeps the later ones,
and either undoes the other. A word that stores decimal digits writes three that add up to the
register. All leave the index register alone and meet no fault. -/
theorem transfers_undo_one_another (m : Machine) (w : UInt16) :
    let i := m.index.toNat
    let x := Word.x w
    let next := (m.execute w).value
    (w &&& 0xF0FF = 0xF055 → i + x.val ≤ 0xFFF →
      ¬ Faults (m.execute w) ∧ next.index = m.index ∧
      (∀ r, r ≤ x → next.memory.read 0 (i + r.val) = m.register r) ∧
      (∀ address, address < memorySize → address < i ∨ i + x.val < address →
        next.memory.read 0 address = m.memory.read 0 address) ∧
      ∀ (n : Machine) (v : UInt16), n.memory = next.memory → n.index = next.index →
        v &&& 0xF0FF = 0xF065 → Word.x v = x →
        ∀ r, r ≤ x → (n.execute v).value.register r = m.register r) ∧
    (w &&& 0xF0FF = 0xF065 → i + x.val ≤ 0xFFF →
      ¬ Faults (m.execute w) ∧ next.index = m.index ∧
      (∀ r, r ≤ x → next.register r = m.memory.read 0 (i + r.val)) ∧
      (∀ r, x < r → next.register r = m.register r) ∧
      ∀ v : UInt16, v &&& 0xF0FF = 0xF055 → Word.x v = x →
        (next.execute v).value.memory = m.memory) ∧
    (w &&& 0xF0FF = 0xF033 → i + 2 ≤ 0xFFF →
      ¬ Faults (m.execute w) ∧ next.index = m.index ∧
      (∃ hundreds tens units, next.memory.read 0 i = hundreds ∧
        next.memory.read 0 (i + 1) = tens ∧ next.memory.read 0 (i + 2) = units ∧
        hundreds ≤ 9 ∧ tens ≤ 9 ∧ units ≤ 9 ∧
        100 * hundreds.toNat + 10 * tens.toNat + units.toNat = (m.register x).toNat) ∧
      ∀ address, address < memorySize → address < i ∨ i + 2 < address →
        next.memory.read 0 address = m.memory.read 0 address) := by
  intro i x next
  refine ⟨?_, ?_, ?_⟩
  · intro word fits
    have done := execute_store word fits
    have index : next.index = m.index := by simp only [next, done]; rfl
    refine ⟨done ▸ not_faults_silent _, index, ?_, ?_, ?_⟩
    · intro r low
      exact read_store_register word fits low
    · intro address inside apart
      rw [read_store word fits inside, if_neg (by omega)]
    · intro n v memory same word' operand r low
      exact register_load_store word fits memory (same.trans index) word' operand low
  · intro word fits
    have done := execute_load word fits
    have index : next.index = m.index := by simp only [next, done]; rfl
    refine ⟨done ▸ not_faults_silent _, index, ?_, ?_, ?_⟩
    · intro r low
      rw [register_load word fits, if_pos low]
    · intro r high
      rw [register_load word fits, if_neg (Fin.not_le.mpr high)]
    · intro v word' operand
      exact memory_store_load word fits word' operand
  · intro word fits
    have done := execute_decimal word fits
    have index : next.index = m.index := by simp only [next, done]; rfl
    obtain ⟨hundreds, tens, units, digits, small⟩ := decimalDigits_sum (m.register x)
    have stored : ∀ k, k ≤ 2 →
        next.memory.read 0 (i + k) = [hundreds, tens, units].getD k 0 := by
      intro k near
      have inside : i + k < memorySize := by
        simp only [memorySize]
        omega
      rw [read_decimal word fits inside, if_pos (by omega), digits, Nat.add_sub_cancel_left]
    refine ⟨done ▸ not_faults_silent _, index,
      ⟨hundreds, tens, units, stored 0 (by omega), stored 1 (by omega), stored 2 (by omega),
        small⟩, ?_⟩
    intro address inside apart
    rw [read_decimal word fits inside, if_neg (by omega)]

/-- The last of three registers lies at the end of memory. -/
theorem transfers_undo_one_another_at_last_byte :
    let m : Machine := { (boot ⟨0, 0⟩ []).value with
      index := 0xFFD
      registers := Vector.ofFn fun r => 200 + UInt8.ofNat r.val }
    let stored := (m.execute 0xF255).value
    let changed := { stored with registers := Vector.replicate 16 0 }
    let digits := (m.execute 0xF333).value.memory
    ((0xF255 : UInt16) &&& 0xF0FF = 0xF055 ∧ (0xF265 : UInt16) &&& 0xF0FF = 0xF065 ∧
      (0xF333 : UInt16) &&& 0xF0FF = 0xF033 ∧ m.index.toNat + (Word.x 0xF255).val ≤ 0xFFF ∧
      m.index.toNat + (Word.x 0xF265).val ≤ 0xFFF ∧ m.index.toNat + 2 ≤ 0xFFF ∧
      Word.x 0xF255 = Word.x 0xF265 ∧ (2 : Nibble) ≤ Word.x 0xF255) ∧
    stored.memory.read 0 0xFFF = 202 ∧ (changed.execute 0xF265).value.register 2 = 202 ∧
    ((m.execute 0xF265).value.execute 0xF255).value.memory = m.memory ∧
    100 * (digits.read 0 0xFFD).toNat + 10 * (digits.read 0 0xFFE).toNat +
      (digits.read 0 0xFFF).toNat = 203 := by
  intro m stored changed digits
  have fits : m.index.toNat + (Word.x 0xF255).val ≤ 0xFFF := by decide
  have fits' : m.index.toNat + (Word.x 0xF265).val ≤ 0xFFF := by decide
  have room : m.index.toNat + 2 ≤ 0xFFF := by decide
  have low : (2 : Nibble) ≤ Word.x 0xF255 := by decide
  have held : m.register 2 = 202 := by decide
  have held' : (m.register (Word.x 0xF333)).toNat = 203 := by decide
  obtain ⟨_, _, stores, _, restores⟩ := (transfers_undo_one_another m 0xF255).1 rfl fits
  obtain ⟨_, _, _, _, keeps⟩ := (transfers_undo_one_another m 0xF265).2.1 rfl fits'
  obtain ⟨_, _, ⟨_, _, _, rfl, rfl, rfl, _, _, _, sum⟩, _⟩ :=
    (transfers_undo_one_another m 0xF333).2.2 rfl room
  exact ⟨⟨rfl, rfl, rfl, fits, fits', room, rfl, low⟩, (stores 2 low).trans held,
    (restores changed 0xF265 rfl rfl rfl rfl 2 low).trans held, keeps 0xF255 rfl rfl,
    sum.trans held'⟩

end Chip8.Machine
