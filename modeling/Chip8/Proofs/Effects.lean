import Chip8.Machine.Perform
import Chip8.Proofs.InstructionTable

namespace Chip8

namespace Machine

/-- The condition of a skip. Other instructions have none. -/
def skips (m : Machine) : Instruction → Bool
  | .skipEqual x byte => m.register x == byte
  | .skipNotEqual x byte => m.register x != byte
  | .skipSame x y => m.register x == m.register y
  | .skipDifferent x y => m.register x != m.register y
  | .skipPressed x => m.keyPressed x
  | .skipReleased x => !m.keyPressed x
  | _ => false

/-- Where an instruction leaves the program counter. -/
def nextPc (m : Machine) : Instruction → UInt16
  | .ret => m.stack.top + 2
  | .jump target => target
  | .call target => target
  | .jumpOffset base => base + (m.register (Nibble.ofNat 0)).toUInt16
  | .awaitKey _ => m.pc
  | i => m.pc + if m.skips i then 4 else 2

/-- Agreement in all that does not belong to the data of a program: only memory, registers,
display, timers, random stream, redraw latch and program counter may differ. -/
structure Steady (m next : Machine) : Prop where
  stack : next.stack = m.stack
  keypad : next.keypad = m.keypad
  opcode : next.opcode = m.opcode
  status : next.status = m.status
  keyTarget : next.keyTarget = m.keyTarget
  runMode : next.runMode = m.runMode
  fault : next.fault = m.fault
  beeps : next.beeps = m.beeps

variable {bus : UInt8} {m next : Machine} {i : Instruction}

theorem compute_eq (m : Machine) (op : Arithmetic) (x y : Nibble) :
    m.compute op x y = { m with registers := (m.compute op x y).registers } := by
  cases op <;> rfl

theorem performOn_cases (h : m.performOn bus i = .ok next) :
    (∃ x : Nibble, i = .awaitKey x ∧
      next = { m with status := .awaitingKey, keyTarget := UInt8.ofNat x, keypad := .released }) ∨
    (i = .ret ∧ m.stack.isEmpty = false ∧
      next = { m with stack := m.stack.pop, pc := m.stack.top + 2 }) ∨
    (∃ target, i = .call target ∧ m.stack.isFull = false ∧
      next = { m with stack := m.stack.push m.pc, pc := target }) ∨
    m.Steady next := by
  cases i with
  | awaitKey x =>
    cases h
    exact .inl ⟨x, rfl, rfl⟩
  | ret =>
    simp only [performOn] at h
    split at h
    · cases h
    · rename_i held
      cases h
      exact .inr (.inl ⟨rfl, by simpa using held, rfl⟩)
  | call target =>
    simp only [performOn] at h
    split at h
    · cases h
    · rename_i room
      cases h
      exact .inr (.inr (.inl ⟨target, rfl, by simpa using room, rfl⟩))
  | arithmetic op x y =>
    cases h
    rw [compute_eq]
    exact .inr (.inr (.inr ⟨rfl, rfl, rfl, rfl, rfl, rfl, rfl, rfl⟩))
  | _ =>
    -- The others are a record update, some of them behind the check of an address range.
    simp only [performOn] at h
    first
    | (cases h
       exact .inr (.inr (.inr ⟨rfl, rfl, rfl, rfl, rfl, rfl, rfl, rfl⟩)))
    | (split at h <;> cases h
       exact .inr (.inr (.inr ⟨rfl, rfl, rfl, rfl, rfl, rfl, rfl, rfl⟩)))

theorem performOn_pc (h : m.performOn bus i = .ok next) : next.pc = m.nextPc i := by
  cases i with
  | arithmetic op x y =>
    cases h
    rw [compute_eq]
    rfl
  | _ =>
    simp only [performOn] at h
    first
    | (cases h; rfl)
    | (split at h <;> cases h; rfl)

/-- Completed instructions leave the run mode, the fault, the fetched word and the beeps alone. -/
theorem performOn_kept (h : m.performOn bus i = .ok next) :
    next.runMode = m.runMode ∧ next.fault = m.fault ∧ next.opcode = m.opcode ∧
      next.beeps = m.beeps := by
  rcases performOn_cases h with ⟨_, _, rfl⟩ | ⟨_, _, rfl⟩ | ⟨_, _, _, rfl⟩ | hs
  · exact ⟨rfl, rfl, rfl, rfl⟩
  · exact ⟨rfl, rfl, rfl, rfl⟩
  · exact ⟨rfl, rfl, rfl, rfl⟩
  · exact ⟨hs.runMode, hs.fault, hs.opcode, hs.beeps⟩

/-- A completed instruction leaves the status alone unless it waits for a key. -/
theorem performOn_status (h : m.performOn bus i = .ok next) :
    next.status = .awaitingKey ∨ next.status = m.status := by
  rcases performOn_cases h with ⟨_, _, rfl⟩ | ⟨_, _, rfl⟩ | ⟨_, _, _, rfl⟩ | hs
  · exact .inl rfl
  · exact .inr rfl
  · exact .inr rfl
  · exact .inr hs.status

/-- An instruction meets only faults that machines halt with by themselves. -/
theorem performOn_raised {f : Fault} (h : m.performOn bus i = .error f) : f ∈ Fault.raised := by
  cases i <;> simp only [performOn] at h
  all_goals first
    | cases h
    | (split at h <;> cases h; decide)

/-- Whether an operation halted the machine with a fault. -/
def Faults (done : Traced Report Machine) : Prop :=
  ∃ r ∈ done.trace, r.isError = true

instance (done : Traced Report Machine) : Decidable (Faults done) :=
  inferInstanceAs (Decidable (∃ r ∈ done.trace, r.isError = true))

theorem faults_halt (f : Option Fault) : Faults (m.halt f) :=
  ⟨.halted f m.pc, List.mem_singleton.mpr rfl, rfl⟩

theorem execute_completes {w : UInt16} (completes : ¬ Faults (m.execute w)) :
    ∃ next, ({ m with opcode := w } : Machine).performOn 0 (.ofWord w) = .ok next ∧
      (m.execute w).value = next := by
  cases met : ({ m with opcode := w } : Machine).performOn 0 (.ofWord w) with
  | ok next =>
    refine ⟨next, rfl, ?_⟩
    simp only [execute, executeOn, met, settle]
  | error f =>
    refine absurd ?_ completes
    simp only [execute, executeOn, met, settle]
    exact faults_halt (some f)

theorem not_faults_silent (m : Machine) : ¬ Faults (.silent m) := by
  rintro ⟨r, hr, _⟩
  cases hr

theorem not_faults_remarks (m next : Machine) (i : Instruction) : ¬ Faults ⟨next, m.remarks i⟩ := by
  rintro ⟨r, hr, isError⟩
  cases i with
  | unknown word =>
    rw [List.mem_singleton.mp hr] at isError
    cases isError
  | _ => cases hr

/-- A word of a kind that meets no fault executes without a report. -/
theorem execute_of_matches {w : UInt16} {k : Kind} (shown : k.pattern.matchesWord w = true)
    (met : ({ m with opcode := w } : Machine).performOn 0 (k.instruction w) = .ok next) :
    m.execute w = .silent next := by
  simp only [execute, executeOn, Instruction.ofWord_of_matches shown, met, settle]
  cases k <;> rfl

/-- The program counter stays far from the end of its range: an instruction in memory goes at
most to the highest address with a byte added. -/
theorem nextPc_le {w : UInt16} (hpc : m.pc.toNat ≤ 0xFFE) (htop : m.stack.top.toNat ≤ 0xFFE) :
    (m.nextPc (.ofWord w)).toNat ≤ 0x10FE := by
  have hnear : (m.pc + 2).toNat ≤ 0x10FE ∧ (m.pc + 4).toNat ≤ 0x10FE := by
    simp only [UInt16.toNat_add, UInt16.reduceToNat]
    omega
  have hw : (Word.nnn w).toNat ≤ 0xFFF := by
    simp only [Word.nnn, UInt16.toNat_and]
    exact Nat.and_le_right
  rcases Instruction.ofWord_cases w with ⟨k, _, hk⟩ | hk
  · rw [hk]
    cases k with
    | ret =>
      simp only [Kind.instruction, Kind.withOperands, nextPc, UInt16.toNat_add, UInt16.reduceToNat]
      omega
    | jump | call =>
      simp only [Kind.instruction, Kind.withOperands, Operands.ofWord, nextPc]
      omega
    | jumpOffset =>
      have hb := (m.register (Nibble.ofNat 0)).toNat_lt
      simp only [Kind.instruction, Kind.withOperands, Operands.ofWord, nextPc, UInt16.toNat_add,
        UInt8.toNat_toUInt16]
      omega
    | awaitKey =>
      simp only [Kind.instruction, Kind.withOperands, Operands.ofWord, nextPc]
      omega
    | _ =>
      simp only [Kind.instruction, Kind.withOperands, Operands.ofWord, nextPc]
      split
      · exact hnear.2
      · exact hnear.1
  · rw [hk]
    exact hnear.1

end Machine

end Chip8
