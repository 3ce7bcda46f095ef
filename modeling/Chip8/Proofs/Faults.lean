import Chip8.Proofs.Reachability

namespace Chip8.Machine

/-- How many bytes from the index register on a word reads or writes. -/
def touched (w : UInt16) : Nat :=
  if w &&& 0xF000 = 0xD000 then (Word.n w).val
  else if w &&& 0xF0FF = 0xF033 then 3
  else if w &&& 0xF0FF = 0xF055 ∨ w &&& 0xF0FF = 0xF065 then (Word.x w).val + 1
  else 0

/-- Why the next cycle of a running machine halts it, and with which fault. -/
inductive Cause (m : Machine) : Fault → Prop where
  | fetch (outside : memorySize ≤ m.pc.toNat + 1) : Cause m .addressOutOfRange
  | call (inside : m.pc.toNat + 1 < memorySize) (word : m.wordOn 0 &&& 0xF000 = 0x2000)
      (full : m.stack.pointer = stackSize) : Cause m .stackOverflow
  | ret (inside : m.pc.toNat + 1 < memorySize) (word : m.wordOn 0 &&& 0xF0FF = 0x00EE)
      (bare : m.stack.pointer = 0) : Cause m .stackUnderflow
  | touch (inside : m.pc.toNat + 1 < memorySize) (offset : Nat)
      (used : offset < touched (m.wordOn 0)) (outside : memorySize ≤ m.index.toNat + offset) :
      Cause m .addressOutOfRange

variable {bus : UInt8} {m next : Machine} {f : Fault}

/-- The bytes that a word of a kind touches, told from the kind. -/
theorem touched_of_matches {k : Kind} {w : UInt16} (h : k.pattern.matchesWord w = true) :
    touched w = match k with
      | .draw => (Word.n w).val
      | .decimal => 3
      | .store | .load => (Word.x w).val + 1
      | _ => 0 := by
  have hdraw : w &&& 0xF000 = 0xD000 ↔ Kind.draw = k := by
    simpa [Pattern.matchesWord, Kind.pattern] using Kind.matches_iff_eq (l := .draw) h
  have hdecimal : w &&& 0xF0FF = 0xF033 ↔ Kind.decimal = k := by
    simpa [Pattern.matchesWord, Kind.pattern] using Kind.matches_iff_eq (l := .decimal) h
  have hstore : w &&& 0xF0FF = 0xF055 ↔ Kind.store = k := by
    simpa [Pattern.matchesWord, Kind.pattern] using Kind.matches_iff_eq (l := .store) h
  have hload : w &&& 0xF0FF = 0xF065 ↔ Kind.load = k := by
    simpa [Pattern.matchesWord, Kind.pattern] using Kind.matches_iff_eq (l := .load) h
  simp only [touched, hdraw, hdecimal, hstore, hload]
  cases k <;> simp

/-- A word that touches bytes draws, stores digits, or moves registers. -/
theorem touched_cases {w : UInt16} {offset : Nat} (h : offset < touched w) :
    (Kind.draw.pattern.matchesWord w = true ∧ offset < (Word.n w).val) ∨
    (Kind.decimal.pattern.matchesWord w = true ∧ offset < 3) ∨
    (Kind.store.pattern.matchesWord w = true ∧ offset < (Word.x w).val + 1) ∨
    (Kind.load.pattern.matchesWord w = true ∧ offset < (Word.x w).val + 1) := by
  unfold touched at h
  split at h
  · rename_i hw
    exact .inl ⟨beq_iff_eq.mpr hw, h⟩
  · split at h
    · rename_i hw
      exact .inr (.inl ⟨beq_iff_eq.mpr hw, h⟩)
    · split at h
      · rename_i hw
        rcases hw with hw | hw
        · exact .inr (.inr (.inl ⟨beq_iff_eq.mpr hw, h⟩))
        · exact .inr (.inr (.inr ⟨beq_iff_eq.mpr hw, h⟩))
      · exact absurd h (Nat.not_lt_zero _)

theorem attempt_of_cause (h : m.Cause f) : m.attemptOn 0 = .error f := by
  cases h with
  | fetch outside => exact if_pos outside
  | call inside word full =>
    rw [attemptOn_of_matches (k := .call) inside (beq_iff_eq.mpr word)]
    have hf : (m.fetchedOn 0).stack.isFull = true := decide_eq_true (Nat.le_of_eq full.symm)
    simp only [Kind.instruction, Kind.withOperands, Operands.ofWord, performOn, hf, ↓reduceIte]
  | ret inside word bare =>
    rw [attemptOn_of_matches (k := .ret) inside (beq_iff_eq.mpr word)]
    have he : (m.fetchedOn 0).stack.isEmpty = true := beq_iff_eq.mpr bare
    simp only [Kind.instruction, Kind.withOperands, performOn, he, ↓reduceIte]
  | touch inside offset used outside =>
    have hi : (m.fetchedOn 0).index = m.index := rfl
    rcases touched_cases used with ⟨hw, hu⟩ | ⟨hw, hu⟩ | ⟨hw, hu⟩ | ⟨hw, hu⟩
    all_goals
      rw [attemptOn_of_matches inside hw]
      simp only [Kind.instruction, Kind.withOperands, Operands.ofWord, performOn, hi]
    · have drawn : (decide (0 < (Word.n (m.wordOn 0)).val) &&
          decide (memorySize < m.index.toNat + (Word.n (m.wordOn 0)).val)) = true := by
        simp only [Bool.and_eq_true, decide_eq_true_eq]
        omega
      rw [if_pos drawn]
    · rw [if_pos (by omega)]
    · rw [if_pos (by omega)]
    · rw [if_pos (by omega)]

theorem cause_of_attempt (room : m.stack.pointer ≤ stackSize) (h : m.attemptOn 0 = .error f) :
    m.Cause f := by
  by_cases outside : memorySize ≤ m.pc.toNat + 1
  · rw [attemptOn, if_pos outside] at h
    cases h
    exact .fetch outside
  · have inside := Nat.lt_of_not_le outside
    rcases Instruction.ofWord_cases (m.wordOn 0) with ⟨k, hk, _⟩ | hu
    · rw [attemptOn_of_matches inside hk] at h
      have ht := touched_of_matches hk
      have hi : (m.fetchedOn 0).index = m.index := rfl
      -- The offset given for a range is its last one: if any is outside memory, that one is.
      cases k with
      | call =>
        simp only [Kind.instruction, Kind.withOperands, Operands.ofWord, performOn] at h
        split at h
        · rename_i full
          cases h
          have hf : stackSize ≤ m.stack.pointer := of_decide_eq_true full
          exact .call inside (beq_iff_eq.mp hk) (Nat.le_antisymm room hf)
        · cases h
      | ret =>
        simp only [Kind.instruction, Kind.withOperands, performOn] at h
        split at h
        · rename_i bare
          cases h
          exact .ret inside (beq_iff_eq.mp hk) (beq_iff_eq.mp bare)
        · cases h
      | draw =>
        simp only [Kind.instruction, Kind.withOperands, Operands.ofWord, performOn, hi] at h
        split at h
        · rename_i past
          cases h
          simp only [Bool.and_eq_true, decide_eq_true_eq] at past
          exact .touch inside ((Word.n (m.wordOn 0)).val - 1) (by simp only [ht]; omega) (by omega)
        · cases h
      | decimal =>
        simp only [Kind.instruction, Kind.withOperands, Operands.ofWord, performOn, hi] at h
        split at h
        · cases h
          exact .touch inside 2 (by simp only [ht]; omega) (by omega)
        · cases h
      | store | load =>
        simp only [Kind.instruction, Kind.withOperands, Operands.ofWord, performOn, hi] at h
        split at h
        · cases h
          exact .touch inside (Word.x (m.wordOn 0)).val (by simp only [ht]; omega) (by omega)
        · cases h
      | _ => cases h
    · rw [attemptOn, if_neg outside, hu] at h
      cases h

theorem isActive_of_running (hs : m.status = .running) (hm : m.runMode ≠ .paused) :
    m.isActive = true := by
  simp [isActive, hs, hm]

/-- A running machine that is not paused halts in its next cycle exactly if there is a cause. It
records the fault that the cause names and the word that it fetched, a pending single step is used
up, and all else stays as it was. -/
theorem halts_iff_cause (hr : Reachable m) (hs : m.status = .running)
    (hm : m.runMode ≠ .paused) :
    (m.cycle.value.status = .halted ↔ ∃ f, m.Cause f) ∧
    ∀ f, m.Cause f → m.cycle.value =
      { m with
        status := .halted
        fault := some f
        opcode := m.wordOn 0
        runMode := if m.runMode = .stepPending then .paused else m.runMode } := by
  have active := isActive_of_running hs hm
  have frozen : ∀ f, m.Cause f → m.cycle.value = ((m.fetchedOn 0).halt (some f)).value.endStep := by
    intro f hc
    have met := attempt_of_cause hc
    rcases turn_of_running 0 active hs with ⟨g, met', result⟩ | ⟨next, met', _⟩
    · rw [met] at met'
      cases met'
      rw [cycle, result]
      rfl
    · simp [met] at met'
  refine ⟨⟨?_, ?_⟩, frozen⟩
  · intro halted
    rcases turn_of_running 0 active hs with ⟨f, met, _⟩ | ⟨next, met, result⟩
    · exact ⟨f, cause_of_attempt hr.orderly.room met⟩
    · rw [cycle, result] at halted
      change next.status = .halted at halted
      rcases attemptOn_status hs met with hn | hn <;> simp [halted] at hn
  · rintro ⟨f, hc⟩
    rw [frozen f hc]
    rfl

/-- A machine about to read two registers, with its index register at the last byte of memory. -/
def atLastByte : Machine :=
  ((boot ⟨0, 0⟩ [0x00, 0x00, 0xF1, 0x65]).value.execute 0xAFFF).value

theorem halts_at_last_byte :
    (Reachable atLastByte ∧ atLastByte.status = .running ∧ atLastByte.runMode ≠ .paused) ∧
    atLastByte.cycle.value =
      { atLastByte with
        status := .halted
        fault := some .addressOutOfRange
        opcode := 0xF165 } := by
  have hr : Reachable atLastByte := .execute _ (.load _ (.powerOn _))
  have word : atLastByte.wordOn 0 = 0xF165 := by
    have hm : atLastByte.memory = (boot ⟨0, 0⟩ [0x00, 0x00, 0xF1, 0x65]).value.memory := rfl
    have hp : atLastByte.pc = 0x202 := rfl
    simp [hm, hp, boot, load, wordOn, Memory.word, Memory.read_writeAll]
    rfl
  have cause : atLastByte.Cause .addressOutOfRange :=
    .touch (by decide) 1 (by rw [word]; decide) (by decide)
  refine ⟨⟨hr, rfl, by decide⟩, ?_⟩
  rw [(halts_iff_cause hr rfl (by decide)).2 _ cause, word]
  rfl

end Chip8.Machine
