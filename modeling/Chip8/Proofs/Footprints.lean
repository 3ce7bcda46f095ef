import Chip8.Machine.Control
import Chip8.Proofs.Effects

namespace Chip8

def Word.IsOf (kinds : List Kind) (w : UInt16) : Prop :=
  ∃ k ∈ kinds, k.pattern.matchesWord w = true

namespace Word

variable {k : Kind} {kinds : List Kind} {w : UInt16}

instance (kinds : List Kind) (w : UInt16) : Decidable (IsOf kinds w) :=
  inferInstanceAs (Decidable (∃ k ∈ kinds, k.pattern.matchesWord w = true))

theorem isOf_iff (hk : k.pattern.matchesWord w = true) : IsOf kinds w ↔ k ∈ kinds := by
  constructor
  · rintro ⟨l, hl, hw⟩
    rw [Kind.matches_unique hk hw]
    exact hl
  · intro h
    exact ⟨k, h, hk⟩

theorem isOf_singleton : IsOf [k] w ↔ k.pattern.matchesWord w = true := by
  simp [IsOf]

theorem isOf_cons : IsOf (k :: kinds) w ↔ k.pattern.matchesWord w = true ∨ IsOf kinds w := by
  simp [IsOf]

theorem not_isOf (unknown : Kind.ofWord? w = none) : ¬ IsOf kinds w := by
  rintro ⟨l, _, hw⟩
  rw [Kind.ofWord?_eq_some.mpr hw] at unknown
  cases unknown

end Word

open Word

namespace Machine

def Skips (m : Machine) (w : UInt16) : Prop :=
  (IsOf [.skipEqual] w ∧ m.register (x w) = kk w) ∨
  (IsOf [.skipNotEqual] w ∧ m.register (x w) ≠ kk w) ∨
  (IsOf [.skipSame] w ∧ m.register (x w) = m.register (y w)) ∨
  (IsOf [.skipDifferent] w ∧ m.register (x w) ≠ m.register (y w)) ∨
  (IsOf [.skipPressed] w ∧ m.keypad.get (Nibble.ofNat (m.register (x w)).toNat) = true) ∨
  (IsOf [.skipReleased] w ∧ m.keypad.get (Nibble.ofNat (m.register (x w)).toNat) = false)

instance (m : Machine) (w : UInt16) : Decidable (m.Skips w) :=
  inferInstanceAs (Decidable (_ ∨ _))

/-- Where a word that completes leaves the program counter. -/
def target (m : Machine) (w : UInt16) : UInt16 :=
  if IsOf [.jump, .call] w then nnn w
  else if IsOf [.jumpOffset] w then nnn w + (m.register (Nibble.ofNat 0)).toUInt16
  else if IsOf [.ret] w then m.stack.top + 2
  else if IsOf [.awaitKey] w then m.pc
  else if m.Skips w then m.pc + 4
  else m.pc + 2

/-- Whether a word that completes may write a register. -/
def Writes (w : UInt16) (r : Nibble) : Prop :=
  (r = x w ∧ IsOf [.set, .addTo, .arithmetic .assign, .arithmetic .or, .arithmetic .and,
    .arithmetic .xor, .random, .readDelay] w) ∨
  ((r = x w ∨ r = flagRegister) ∧ IsOf [.arithmetic .add, .arithmetic .subtract,
    .arithmetic .shiftRight, .arithmetic .subtractFrom, .arithmetic .shiftLeft] w) ∨
  (r = flagRegister ∧ IsOf [.draw] w) ∨
  (r ≤ x w ∧ IsOf [.load] w)

/-- What a word that completes may change of a machine, the program counter and the word recorded
as fetched left aside. -/
structure Footprint (m : Machine) (w : UInt16) (next : Machine) : Prop where
  memory : next.memory ≠ m.memory → IsOf [.decimal, .store] w
  stack : next.stack ≠ m.stack → IsOf [.call, .ret] w
  display : next.display ≠ m.display → IsOf [.clearScreen, .draw] w
  needsRedraw : next.needsRedraw ≠ m.needsRedraw → IsOf [.clearScreen, .draw] w
  random : next.random ≠ m.random → IsOf [.random] w
  index : next.index ≠ m.index → IsOf [.setIndex, .addToIndex, .glyph] w
  delayTimer : next.delayTimer ≠ m.delayTimer → IsOf [.setDelay] w
  soundTimer : next.soundTimer ≠ m.soundTimer → IsOf [.setSound] w
  status : next.status ≠ m.status → IsOf [.awaitKey] w
  keypad : next.keypad ≠ m.keypad → IsOf [.awaitKey] w
  keyTarget : next.keyTarget ≠ m.keyTarget → IsOf [.awaitKey] w
  registers : ∀ r, next.register r ≠ m.register r → Writes w r
  runMode : next.runMode = m.runMode
  fault : next.fault = m.fault
  beeps : next.beeps = m.beeps

variable {bus : UInt8} {m next : Machine} {k : Kind} {w : UInt16}

theorem register_setRegister (m : Machine) (x r : Nibble) (byte : UInt8) :
    (m.setRegister x byte).register r = if x = r then byte else m.register r := by
  simp only [register, setRegister, get_eq_getElem, Fin.getElem_fin, Vector.getElem_setIfInBounds,
    Fin.ext_iff]

theorem eq_of_setRegister {x r : Nibble} {byte : UInt8}
    (h : (m.setRegister x byte).register r ≠ m.register r) : r = x := by
  rw [register_setRegister] at h
  split at h
  · rename_i same
    exact same.symm
  · exact absurd rfl h

theorem compute_eq_setRegister {op : Arithmetic} {x y : Nibble} {result : UInt8}
    (h : op.apply (m.register x) (m.register y) = (result, none)) :
    m.compute op x y = m.setRegister x result := by
  simp only [compute, h]

theorem eq_of_compute {op : Arithmetic} {x y r : Nibble}
    (h : (m.compute op x y).register r ≠ m.register r) : r = x ∨ r = flagRegister := by
  simp only [compute, register_setRegister] at h
  split at h
  · rename_i same
    exact .inl same.symm
  · split at h
    · exact .inr (eq_of_setRegister h)
    · exact absurd rfl h

theorem le_of_loadedOn {x r : Nibble}
    (h : ({ m with registers := m.loadedOn bus x } : Machine).register r ≠ m.register r) :
    r ≤ x := by
  simp only [register, loadedOn, get_eq_getElem, Fin.getElem_fin, Vector.getElem_ofFn] at h
  split at h
  · assumption
  · exact absurd rfl h

/-- A word writes only the registers that it names, and the flag. -/
theorem writes_of_matches (hk : k.pattern.matchesWord w = true)
    (h : m.performOn bus (k.instruction w) = .ok next) {r : Nibble}
    (changed : next.register r ≠ m.register r) : Writes w r := by
  have own : ∀ kinds, k ∈ kinds → IsOf kinds w := fun kinds hm => (isOf_iff hk).mpr hm
  cases k with
  | set | addTo | random | readDelay =>
    cases h
    exact .inl ⟨eq_of_setRegister changed, own _ (by decide)⟩
  | arithmetic op =>
    cases h
    have changed : (m.compute op (x w) (y w)).register r ≠ m.register r := changed
    cases op with
    | assign | or | and | xor =>
      rw [compute_eq_setRegister rfl] at changed
      exact .inl ⟨eq_of_setRegister changed, own _ (by decide)⟩
    | _ => exact .inr (.inl ⟨eq_of_compute changed, own _ (by decide)⟩)
  | draw =>
    simp only [Kind.instruction, Kind.withOperands, Operands.ofWord, performOn] at h
    split at h <;> cases h
    exact .inr (.inr (.inl ⟨eq_of_setRegister changed, own _ (by decide)⟩))
  | load =>
    simp only [Kind.instruction, Kind.withOperands, Operands.ofWord, performOn] at h
    split at h <;> cases h
    exact .inr (.inr (.inr ⟨le_of_loadedOn changed, own _ (by decide)⟩))
  | _ =>
    simp only [Kind.instruction, Kind.withOperands, Operands.ofWord, performOn] at h
    first
    | (cases h; exact absurd rfl changed)
    | (split at h <;> cases h; exact absurd rfl changed)

theorem footprint_of_matches (hk : k.pattern.matchesWord w = true)
    (h : m.performOn bus (k.instruction w) = .ok next) : m.Footprint w next := by
  have own : ∀ kinds, k ∈ kinds → IsOf kinds w := fun kinds hm => (isOf_iff hk).mpr hm
  have registers : ∀ r, next.register r ≠ m.register r → Writes w r :=
    fun r changed => writes_of_matches hk h changed
  cases k with
  | arithmetic op =>
    cases h
    rw [compute_eq] at *
    constructor
    case registers => exact registers
    all_goals first | rfl | exact fun changed => absurd rfl changed
  | _ =>
    -- A part is left as it is, or the kind is one of those that own the part.
    simp only [Kind.instruction, Kind.withOperands, Operands.ofWord, performOn] at h
    first
    | cases h
    | (split at h <;> cases h)
    constructor
    case registers => exact registers
    all_goals
      first
      | rfl
      | exact fun changed => absurd rfl changed
      | exact fun _ => own _ (by decide)

/-- A word of no kind only moves the program counter. -/
theorem footprint_of_unknown (h : m.performOn bus (.unknown w) = .ok next) :
    m.Footprint w next := by
  cases h
  constructor <;> first | rfl | exact fun changed => absurd rfl changed | skip
  intro r changed
  exact absurd rfl changed

theorem footprint_of_word (h : m.performOn bus (.ofWord w) = .ok next) : m.Footprint w next := by
  rcases Instruction.ofWord_cases w with ⟨k, hk, he⟩ | unknown
  · rw [he] at h
    exact footprint_of_matches hk h
  · rw [unknown] at h
    exact footprint_of_unknown h

theorem skips_iff (hk : k.pattern.matchesWord w = true) :
    m.skips (k.instruction w) = true ↔ m.Skips w := by
  simp only [Skips, isOf_iff hk]
  cases k <;> simp [Kind.instruction, Kind.withOperands, Operands.ofWord, skips, keyPressed]

theorem nextPc_of_matches (hk : k.pattern.matchesWord w = true) :
    m.nextPc (k.instruction w) = m.target w := by
  have skip : (m.pc + if m.skips (k.instruction w) then 4 else 2) =
      if m.Skips w then m.pc + 4 else m.pc + 2 := by
    simp only [skips_iff hk]
    split <;> rfl
  simp only [target, isOf_iff hk]
  cases k with
  | ret | jump | call | jumpOffset | awaitKey => rfl
  | _ => exact skip

theorem nextPc_of_unknown (unknown : Kind.ofWord? w = none) :
    m.nextPc (.unknown w) = m.target w := by
  simp only [target, Skips, not_isOf unknown, nextPc, skips]
  simp

/-- A word that completes is recorded as fetched, changes only the parts of the machine that its
kind owns, and leaves the program counter where it sends it. -/
theorem executes_within_footprint (m : Machine) (w : UInt16)
    (completes : ¬ Faults (m.execute w)) :
    (m.execute w).value.opcode = w ∧ m.Footprint w (m.execute w).value ∧
      (m.execute w).value.pc = m.target w := by
  obtain ⟨next, met, reached⟩ := execute_completes completes
  rw [reached]
  refine ⟨(performOn_kept met).2.2.1, ?_⟩
  have pc := performOn_pc met
  cases known : Kind.ofWord? w with
  | some k =>
    have hk := Kind.ofWord?_eq_some.mp known
    rw [Instruction.ofWord_of_matches hk] at met pc
    have same : Footprint { m with opcode := w } w next := footprint_of_matches hk met
    exact ⟨{ same with }, pc.trans (nextPc_of_matches hk)⟩
  | none =>
    have unknown : Instruction.ofWord w = .unknown w := by simp only [Instruction.ofWord, known]
    rw [unknown] at met pc
    have same : Footprint { m with opcode := w } w next := footprint_of_unknown met
    exact ⟨{ same with }, pc.trans (nextPc_of_unknown known)⟩

/-- The glyph of a zero, drawn over the empty corner of the display, moves no register but the
flag. -/
theorem executes_within_footprint_of_draw :
    let m := (boot ⟨0, 0⟩ []).value
    let done := m.execute 0xD005
    ¬ Faults done ∧ done.value.opcode = 0xD005 ∧ done.value.display ≠ m.display ∧
      IsOf [.clearScreen, .draw] 0xD005 ∧ done.value.memory = m.memory ∧
      (∀ r, done.value.register r ≠ m.register r → Writes 0xD005 r) ∧ done.value.pc = 0x202 := by
  intro m done
  have completes : ¬ Faults done := by decide +kernel
  have drawn : done.value.display ≠ m.display := by decide +kernel
  obtain ⟨opcode, kept, pc⟩ := executes_within_footprint m 0xD005 completes
  have memory : done.value.memory = m.memory := by
    apply Decidable.byContradiction
    intro changed
    exact absurd (kept.memory changed) (by decide)
  exact ⟨completes, opcode, drawn, kept.display drawn, memory, kept.registers,
    pc.trans (by decide)⟩

end Machine

end Chip8
