import Chip8.Display.Pixel
import Chip8.Proofs.Faults
import Chip8.Proofs.Transfers

namespace Chip8.Machine

variable {m : Machine} {w : UInt16} {x y height : Nibble}

/-- The next cycle looks for its word past the end of memory. -/
def Strays (m : Machine) : Prop :=
  m.isActive = true ∧ memorySize ≤ m.pc.toNat + 1

def cyclesOn (bus : UInt8) (m : Machine) (n : Nat) : Traced Report Machine :=
  Traced.iterate (fun _ => cycleOn bus) n 0 m

/-- Each byte that a word stores is in memory: the three digits of its register, or the registers up
to that one, from the index register on. -/
def Stored (m : Machine) (w : UInt16) (memory : Memory) : Prop :=
  let i := m.index.toNat
  let byte := m.register (Word.x w)
  (w &&& 0xF0FF = 0xF033 →
    memory.cells[i]? = some (byte / 100) ∧ memory.cells[i + 1]? = some (byte / 10 % 10) ∧
      memory.cells[i + 2]? = some (byte % 10)) ∧
  (w &&& 0xF0FF = 0xF055 → ∀ r, r ≤ Word.x w → memory.cells[i + r.val]? = some (m.register r))

theorem get_spriteOn (bus : UInt8) (m : Machine) (row : Nibble) :
    (m.spriteOn bus).get row = m.memory.read bus (m.index.toNat + row.val) := by
  simp [spriteOn]

theorem drawOn_bus (fits : 0 < height.val → m.index.toNat + height.val ≤ memorySize)
    (bus : UInt8) : m.drawOn bus x y height = m.drawOn 0 x y height := by
  have rows : ∀ r : Nibble, (r.val : Int) < height.val →
      (m.spriteOn bus).get r = (m.spriteOn 0).get r := by
    intro r drawn
    have inside : m.index.toNat + r.val < memorySize := by
      have room := fits (by omega)
      omega
    rw [get_spriteOn, get_spriteOn, Memory.read_bus inside bus 0]
  simp only [drawOn, Display.blit, Display.layer_congr_rows rows]

theorem loadedOn_bus (fits : m.index.toNat + x.val < memorySize) (bus : UInt8) :
    m.loadedOn bus x = m.loadedOn 0 x := by
  unfold loadedOn
  congr 1
  funext r
  split
  · rename_i low
    have inside : m.index.toNat + r.val < memorySize := by
      rw [Fin.le_def] at low
      omega
    exact Memory.read_bus inside bus 0
  · rfl

theorem performOn_bus (bus : UInt8) (m : Machine) (i : Instruction) :
    m.performOn bus i = m.performOn 0 i := by
  cases i with
  | draw x y height =>
    refine ite_congr rfl (fun _ => rfl) ?_
    intro inside
    simp only [Bool.and_eq_true, decide_eq_true_eq, not_and, Nat.not_lt] at inside
    rw [drawOn_bus inside bus]
  | load x =>
    refine ite_congr rfl (fun _ => rfl) ?_
    intro inside
    rw [loadedOn_bus (Nat.lt_of_not_le inside) bus]
  | store x => simp only [performOn, Memory.writeFirst_eq]
  | _ => rfl

theorem executeOn_bus (bus : UInt8) (m : Machine) (w : UInt16) :
    m.executeOn bus w = m.execute w := by
  simp only [execute, executeOn, performOn_bus bus]

theorem fetchedOn_bus (inside : m.pc.toNat + 1 < memorySize) (bus : UInt8) :
    m.fetchedOn bus = m.fetchedOn 0 := by
  have first : m.pc.toNat < memorySize := by omega
  simp only [fetchedOn, wordOn, Memory.word, Memory.read_bus first bus 0,
    Memory.read_bus inside bus 0]

theorem proceedOn_bus (bus : UInt8) (m : Machine) : m.proceedOn bus = m.proceedOn 0 := by
  simp only [proceedOn, executeOn_bus]

theorem cycleOn_bus (found : ¬ m.Strays) (bus : UInt8) : m.cycleOn bus = m.cycle := by
  cases active : m.isActive with
  | false => rw [cycle, cycleOn_rest active, cycleOn_rest active]
  | true =>
    have inside : m.pc.toNat + 1 < memorySize := Nat.lt_of_not_le fun out => found ⟨active, out⟩
    rw [cycle, cycleOn_active active, cycleOn_active active, fetchOn_inside inside,
      fetchOn_inside inside, fetchedOn_bus inside bus, Traced.silent_andThen,
      Traced.silent_andThen, proceedOn_bus bus]

theorem cycleOn_strays (strays : m.Strays) (bus : UInt8) :
    m.cycleOn bus = m.cycle.map fun next => { next with opcode := m.wordOn bus } := by
  rw [cycle, cycleOn_outside strays.1 strays.2, cycleOn_outside strays.1 strays.2]
  rfl

theorem Strays.halts (strays : m.Strays) :
    m.cycle.value.status = .halted ∧ m.cycle.value.fault = some .addressOutOfRange := by
  rw [cycle, cycleOn_outside strays.1 strays.2]
  exact ⟨rfl, rfl⟩

/-- A machine at rest takes no notice of the word fetched last. -/
theorem cycleOn_recorded (idle : m.isActive = false) (bus : UInt8) (w : UInt16) :
    ({ m with opcode := w } : Machine).cycleOn bus =
      m.cycle.map fun next => { next with opcode := w } := by
  have still : ({ m with opcode := w } : Machine).isActive = false := idle
  rw [cycle, cycleOn_rest idle, cycleOn_rest still]
  rfl

@[simp] theorem cyclesOn_zero (bus : UInt8) (m : Machine) : m.cyclesOn bus 0 = .silent m := rfl

theorem cyclesOn_concat (bus : UInt8) (m : Machine) (n : Nat) :
    m.cyclesOn bus (n + 1) = (m.cyclesOn bus n).andThen (cycleOn bus) :=
  Traced.iterate_concat _ n 0 m

/-- A run leads to the same machine and reports the same, unless one of its cycles strays: then the
word that this cycle records is all that differs. -/
theorem cyclesOn_bus (bus : UInt8) (m : Machine) (n : Nat) :
    m.cyclesOn bus n = m.cycles n ∨
    ∃ k, k < n ∧ (m.cycles k).value.Strays ∧ m.cyclesOn bus n =
      (m.cycles n).map fun last => { last with opcode := (m.cycles k).value.wordOn bus } := by
  induction n with
  | zero =>
    left
    rw [cyclesOn_zero, cycles_zero]
  | succ n ih =>
    rw [cyclesOn_concat, cycles_concat]
    rcases ih with same | ⟨k, earlier, strays, apart⟩
    · rw [same]
      by_cases strays : (m.cycles n).value.Strays
      · refine .inr ⟨n, Nat.lt_succ_self n, strays, ?_⟩
        simp only [Traced.andThen, Traced.map, cycleOn_strays strays bus]
      · refine .inl ?_
        simp only [Traced.andThen, cycleOn_bus strays bus]
    · -- The run halted in the cycle that strayed, so this cycle does nothing on either side.
      have halted : (m.cycles n).value.status = .halted := by
        apply cycles_halted_mono (a := k + 1) earlier
        rw [cycles_concat]
        exact strays.halts.1
      have idle : (m.cycles n).value.isActive = false := by simp [isActive, halted]
      refine .inr ⟨k, Nat.lt_succ_of_lt earlier, strays, ?_⟩
      rw [apart]
      simp only [Traced.andThen, Traced.map, cycleOn_recorded idle]

theorem inside_of_completes (completes : ¬ Faults (m.execute w)) {offset : Nat}
    (used : offset < touched w) : m.index.toNat + offset < memorySize := by
  obtain ⟨next, met, _⟩ := execute_completes completes
  rcases touched_cases used with ⟨shown, near⟩ | ⟨shown, near⟩ | ⟨shown, near⟩ | ⟨shown, near⟩
  all_goals
    rw [Instruction.ofWord_of_matches shown] at met
    simp only [Kind.instruction, Kind.withOperands, Operands.ofWord, performOn] at met
    split at met
    · cases met
  · rename_i inside
    simp only [Bool.and_eq_true, decide_eq_true_eq, not_and, Nat.not_lt] at inside
    have fits := inside (by omega)
    omega
  all_goals omega

theorem stored_of_completes (completes : ¬ Faults (m.execute w)) :
    m.Stored w (m.execute w).value.memory := by
  refine ⟨?_, ?_⟩
  · intro word
    have three : touched w = 3 := touched_of_matches (k := .decimal) (beq_iff_eq.mpr word)
    have inside : ∀ k, k ≤ 2 → m.index.toNat + k < memorySize :=
      fun k near => inside_of_completes completes (by omega)
    have digit : ∀ k, k ≤ 2 → (m.execute w).value.memory.cells[m.index.toNat + k]? =
        some ((decimalDigits (m.register (Word.x w))).getD k 0) := by
      intro k near
      rw [Memory.getElem?_cells (inside k near) 0,
        read_decimal word (Nat.le_of_lt_succ (inside 2 (by omega))) (inside k near),
        if_pos (by omega), Nat.add_sub_cancel_left]
    exact ⟨digit 0 (by omega), digit 1 (by omega), digit 2 (by omega)⟩
  · intro word r low
    have count : touched w = (Word.x w).val + 1 :=
      touched_of_matches (k := .store) (beq_iff_eq.mpr word)
    have inside : ∀ s, s ≤ Word.x w → m.index.toNat + s.val < memorySize := by
      intro s within
      rw [Fin.le_def] at within
      exact inside_of_completes completes (by omega)
    rw [Memory.getElem?_cells (inside r low) 0,
      read_store_register word (Nat.le_of_lt_succ (inside _ (Fin.le_refl _))) low]

/-- A cycle that does not halt completes its word and counts the timers down. -/
theorem Executes.reaches (executes : m.Executes w) (going : m.cycle.value.status ≠ .halted) :
    ¬ Faults (m.execute w) ∧ m.cycle.value = (m.execute w).value.tick.endStep := by
  obtain ⟨active, running, _, rfl⟩ := executes
  rcases turn_of_running 0 active running with ⟨f, _, result⟩ | ⟨next, met, result⟩
  · rw [cycle, result] at going
    exact absurd rfl going
  · have performed := (attemptOn_inside met).2
    have done : m.execute (m.wordOn 0) = ⟨next, m.remarks (.ofWord (m.wordOn 0))⟩ := by
      change (m.fetchedOn 0).settle _ ((m.fetchedOn 0).performOn 0 _) = _
      rw [performed]
      rfl
    rw [done, cycle, result]
    exact ⟨not_faults_remarks m next _, rfl⟩

/-- Whatever memory reads as past its end, a cycle leads to the same machine and reports the same,
but for the word that it records where it halts on its fetch, and so does a run. No word sees such a
byte when it executes. One that completes touches bytes of memory and no others, and the digits or
registers that it stores are all there. -/
theorem past_end_unseen (m : Machine) (bus : UInt8) :
    (¬ m.Strays → m.cycleOn bus = m.cycle) ∧
    (m.Strays → m.cycle.value.status = .halted ∧
      m.cycle.value.fault = some .addressOutOfRange ∧
      m.cycleOn bus = m.cycle.map fun next => { next with opcode := m.wordOn bus }) ∧
    (∀ n, m.cyclesOn bus n = m.cycles n ∨
      ∃ k, k < n ∧ (m.cycles k).value.Strays ∧ m.cyclesOn bus n =
        (m.cycles n).map fun last => { last with opcode := (m.cycles k).value.wordOn bus }) ∧
    ∀ w, m.executeOn bus w = m.execute w ∧
      (¬ Faults (m.execute w) →
        (∀ offset, offset < touched w → m.index.toNat + offset < memorySize) ∧
        m.Stored w (m.execute w).value.memory) ∧
      (m.Executes w → m.cycle.value.status ≠ .halted → m.Stored w m.cycle.value.memory) := by
  refine ⟨fun found => cycleOn_bus found bus, ?_, cyclesOn_bus bus m, ?_⟩
  · intro strays
    obtain ⟨halted, fault⟩ := strays.halts
    exact ⟨halted, fault, cycleOn_strays strays bus⟩
  · intro w
    refine ⟨executeOn_bus bus m w, fun completes =>
      ⟨fun _ used => inside_of_completes completes used, stored_of_completes completes⟩, ?_⟩
    intro executes going
    obtain ⟨completes, reached⟩ := executes.reaches going
    have kept : m.cycle.value.memory = (m.execute w).value.memory := by
      rw [reached]
      rfl
    rw [kept]
    exact stored_of_completes completes

/-- Three registers end at the last byte of memory, so that thirteen bytes past it are read and put
back. After a jump to that byte the next word begins with it and ends outside. -/
theorem past_end_unseen_at_last_byte :
    let program := [0x00, 0x00, 0x00, 0x00, 0xF2, 0x55]
    let m := (((boot ⟨0, 0⟩ program).value.execute 0x62CA).value.execute 0xAFFD).value
    let jumped := (m.execute 0x1FFF).value
    (Reachable m ∧ Reachable jumped ∧ ¬ m.Strays ∧ jumped.Strays ∧ m.Executes 0xF255 ∧
      m.cycle.value.status ≠ .halted ∧ ¬ Faults (m.execute 0xF255) ∧
      (0xF255 : UInt16) &&& 0xF0FF = 0xF055 ∧ (2 : Nibble) ≤ Word.x 0xF255) ∧
    m.cycleOn 0xFF = m.cycle ∧ m.index.toNat + 2 < memorySize ∧
    m.cycle.value.memory.cells[0xFFF]? = some 202 ∧
    (jumped.cycleOn 0xFF).value.opcode = 0x00FF ∧ jumped.cycle.value.opcode = 0 ∧
    (jumped.cycleOn 0xFF).value.memory = jumped.cycle.value.memory ∧
    jumped.cycle.value.fault = some .addressOutOfRange := by
  intro program m jumped
  have reachable : Reachable m := .execute _ (.execute _ (.load _ (.powerOn _)))
  have memory : m.memory = Font.memory.writeAll programStart.toNat program := rfl
  have word : m.wordOn 0 = 0xF255 := by
    have pc : m.pc = 0x204 := rfl
    simp [wordOn, Memory.word, memory, pc, program, Memory.read_writeAll]
    rfl
  have executes : m.Executes 0xF255 := ⟨rfl, rfl, by decide, word⟩
  have found : ¬ m.Strays := fun strays => Nat.not_le.mpr executes.inside strays.2
  have strays : jumped.Strays := ⟨rfl, by decide⟩
  have going : m.cycle.value.status ≠ .halted := by decide +kernel
  have completes : ¬ Faults (m.execute 0xF255) := (executes.reaches going).1
  have low : (2 : Nibble) ≤ Word.x 0xF255 := by decide
  obtain ⟨same, _, _, words⟩ := past_end_unseen m 0xFF
  obtain ⟨_, apart, _, _⟩ := past_end_unseen jumped 0xFF
  obtain ⟨_, fault, differs⟩ := apart strays
  have inside : m.index.toNat + 2 < memorySize := ((words 0xF255).2.1 completes).1 2 (by decide)
  have stored := ((words 0xF255).2.2 executes going).2 rfl 2 low
  have byte : m.register 2 = 202 := by decide
  have beyond : ∀ b, jumped.wordOn b = Word.ofBytes 0 b := by
    intro b
    have last : jumped.memory.read b 0xFFF = 0 := by
      change (Font.memory.writeAll programStart.toNat program).read b 0xFFF = 0
      rw [Memory.read_writeAll, if_neg (by decide), Font.memory, Memory.read_writeAll,
        if_neg (by decide)]
      simp [Memory.read, Memory.blank]
    have past : jumped.memory.read b 0x1000 = b := Memory.read_of_le (Nat.le_refl _) b
    change Word.ofBytes (jumped.memory.read b 0xFFF) (jumped.memory.read b 0x1000) = _
    rw [last, past]
  refine ⟨⟨reachable, .execute _ reachable, found, strays, executes, going, completes, rfl, low⟩,
    same found, inside, ?_, ?_, ?_, ?_, fault⟩
  · rw [← byte]
    exact stored
  · rw [differs, beyond]
    rfl
  · have unchanged := cycleOn_strays strays 0
    rw [beyond] at unchanged
    exact congrArg (fun done => done.value.opcode) unchanged
  · rw [differs]
    rfl

end Chip8.Machine
