import Chip8.Machine.Cycle
import Chip8.Proofs.Effects

namespace Chip8

theorem Traced.iterate_const {ε σ : Type} (step : σ → Traced ε σ) (n first : Nat) (s : σ) :
    iterate (fun _ => step) n first s = iterate (fun _ => step) n 0 s := by
  induction n generalizing first s with
  | zero => rfl
  | succ n ih =>
    simp only [iterate_succ, andThen]
    rw [ih (first + 1), ih (0 + 1)]

namespace Machine

variable {bus : UInt8} {m next : Machine}

def fetchedOn (bus : UInt8) (m : Machine) : Machine :=
  { m with opcode := m.wordOn bus }

def attemptOn (bus : UInt8) (m : Machine) : Except Fault Machine :=
  if memorySize ≤ m.pc.toNat + 1 then .error .addressOutOfRange
  else (m.fetchedOn bus).performOn bus (.ofWord (m.wordOn bus))

/-- The kinds of cycle of a machine, and what each leads to. -/
inductive TurnOn (bus : UInt8) (m : Machine) : Prop where
  | rest (idle : m.isActive = false) (result : m.cycleOn bus = .silent m.endStep)
  | poll (active : m.isActive = true) (waiting : m.status = .awaitingKey)
      (inside : m.pc.toNat + 1 < memorySize)
      (result : m.cycleOn bus = .silent (m.fetchedOn bus).pollKeypad.endStep)
  | lost (active : m.isActive = true) (waiting : m.status = .awaitingKey)
      (outside : memorySize ≤ m.pc.toNat + 1)
      (result : m.cycleOn bus = ((m.fetchedOn bus).halt (some .addressOutOfRange)).map endStep)
  | fault (f : Fault) (active : m.isActive = true) (running : m.status = .running)
      (met : m.attemptOn bus = .error f)
      (result : m.cycleOn bus = ((m.fetchedOn bus).halt (some f)).map endStep)
  | complete (next : Machine) (active : m.isActive = true) (running : m.status = .running)
      (met : m.attemptOn bus = .ok next)
      (result : m.cycleOn bus = ⟨next.tick.endStep, m.remarks (.ofWord (m.wordOn bus))⟩)

theorem attemptOn_inside (h : m.attemptOn bus = .ok next) :
    m.pc.toNat + 1 < memorySize ∧
      (m.fetchedOn bus).performOn bus (.ofWord (m.wordOn bus)) = .ok next := by
  unfold attemptOn at h
  split at h
  · cases h
  · rename_i inside
    exact ⟨Nat.lt_of_not_le inside, h⟩

theorem attemptOn_of_matches {k : Kind} (inside : m.pc.toNat + 1 < memorySize)
    (h : k.pattern.matchesWord (m.wordOn bus) = true) :
    m.attemptOn bus = (m.fetchedOn bus).performOn bus (k.instruction (m.wordOn bus)) := by
  rw [attemptOn, if_neg (Nat.not_le.mpr inside), Instruction.ofWord_of_matches h]

theorem attemptOn_raised {f : Fault} (h : m.attemptOn bus = .error f) : f ∈ Fault.raised := by
  unfold attemptOn at h
  split at h
  · cases h
    decide
  · exact performOn_raised h

/-- A completed instruction of a running machine leaves it running or waiting for a key. -/
theorem attemptOn_status (hs : m.status = .running) (h : m.attemptOn bus = .ok next) :
    next.status = .awaitingKey ∨ next.status = .running := by
  rcases performOn_status (attemptOn_inside h).2 with hw | hk
  · exact .inl hw
  · exact .inr (hk.trans hs)

theorem cycleOn_rest (idle : m.isActive = false) : m.cycleOn bus = .silent m.endStep := by
  simp only [cycleOn, idle, Bool.false_eq_true, ↓reduceIte]
  rfl

theorem cycleOn_active (active : m.isActive = true) :
    m.cycleOn bus = ((m.fetchOn bus).andThen (proceedOn bus)).map endStep := by
  simp only [cycleOn, active, ↓reduceIte]

theorem fetchOn_inside (inside : m.pc.toNat + 1 < memorySize) :
    m.fetchOn bus = .silent (m.fetchedOn bus) := by
  simp only [fetchOn, if_neg (Nat.not_le.mpr inside)]
  rfl

theorem fetchOn_outside (outside : memorySize ≤ m.pc.toNat + 1) :
    m.fetchOn bus = (m.fetchedOn bus).halt (some .addressOutOfRange) := by
  simp only [fetchOn, if_pos outside]
  rfl

/-- A machine that halted on its fetch is not looked at again in that cycle. -/
theorem cycleOn_outside (active : m.isActive = true) (outside : memorySize ≤ m.pc.toNat + 1) :
    m.cycleOn bus = ((m.fetchedOn bus).halt (some .addressOutOfRange)).map endStep := by
  rw [cycleOn_active active, fetchOn_outside outside]
  rfl

theorem cycleOn_running (active : m.isActive = true) (running : m.status = .running)
    (inside : m.pc.toNat + 1 < memorySize) :
    m.cycleOn bus = (((m.fetchedOn bus).settle (m.remarks (.ofWord (m.wordOn bus)))
      (m.attemptOn bus)).map tickUnlessHalted).map endStep := by
  have hf : (m.fetchedOn bus).status.nearest = .running := by
    change m.status.nearest = .running
    rw [running]
    rfl
  rw [cycleOn_active active, fetchOn_inside inside, Traced.silent_andThen, proceedOn, hf,
    attemptOn, if_neg (Nat.not_le.mpr inside)]
  rfl

theorem turnOn (bus : UInt8) (m : Machine) (named : m.status.name?.isSome = true) :
    TurnOn bus m := by
  cases active : m.isActive with
  | false => exact .rest active (cycleOn_rest active)
  | true =>
    cases status : m.status with
    | halted => simp [isActive, status] at active
    | unnamed code => simp [status, Status.name?] at named
    | awaitingKey =>
      by_cases outside : memorySize ≤ m.pc.toNat + 1
      · exact .lost active status outside (cycleOn_outside active outside)
      · have inside := Nat.lt_of_not_le outside
        refine .poll active status inside ?_
        have hf : (m.fetchedOn bus).status.nearest = .awaitingKey := by
          change m.status.nearest = .awaitingKey
          rw [status]
          rfl
        rw [cycleOn_active active, fetchOn_inside inside, Traced.silent_andThen, proceedOn, hf]
        rfl
    | running =>
      by_cases outside : memorySize ≤ m.pc.toNat + 1
      · exact .fault _ active status (if_pos outside) (cycleOn_outside active outside)
      · have hc := @cycleOn_running bus m active status (Nat.lt_of_not_le outside)
        cases met : m.attemptOn bus with
        | error f =>
          rw [met] at hc
          exact .fault f active status met hc
        | ok next =>
          rw [met] at hc
          refine .complete next active status met (hc.trans ?_)
          have going : next.status ≠ .halted := by
            rcases attemptOn_status status met with hn | hn <;> simp [hn]
          have ticked : next.tickUnlessHalted = next.tick := if_neg going
          simp only [settle, Traced.map, ticked]

/-- The next cycle of a running machine halts it or completes an instruction. -/
theorem turn_of_running (bus : UInt8) (active : m.isActive = true) (running : m.status = .running) :
    (∃ f, m.attemptOn bus = .error f ∧
      m.cycleOn bus = ((m.fetchedOn bus).halt (some f)).map endStep) ∨
    ∃ next, m.attemptOn bus = .ok next ∧
      m.cycleOn bus = ⟨next.tick.endStep, m.remarks (.ofWord (m.wordOn bus))⟩ := by
  have named : m.status.name?.isSome = true := by rw [running]; rfl
  cases turnOn bus m named with
  | rest idle _ => simp [active] at idle
  | poll _ waiting _ _ => simp [running] at waiting
  | lost _ waiting _ _ => simp [running] at waiting
  | fault f _ _ met result => exact .inl ⟨f, met, result⟩
  | complete next _ _ met result => exact .inr ⟨next, met, result⟩

/-- The next cycle executes a word: the machine is active and runs, and the word stands at its
program counter. -/
structure Executes (m : Machine) (w : UInt16) : Prop where
  active : m.isActive = true
  running : m.status = .running
  inside : m.pc.toNat + 1 < memorySize
  word : m.wordOn 0 = w

instance (m : Machine) (w : UInt16) : Decidable (m.Executes w) :=
  decidable_of_iff
    (m.isActive = true ∧ m.status = .running ∧ m.pc.toNat + 1 < memorySize ∧ m.wordOn 0 = w)
    ⟨fun ⟨active, running, inside, word⟩ => ⟨active, running, inside, word⟩,
      fun h => ⟨h.active, h.running, h.inside, h.word⟩⟩

theorem Executes.completes {w : UInt16} {k : Kind} (h : m.Executes w)
    (shown : k.pattern.matchesWord w = true)
    (met : (m.fetchedOn 0).performOn 0 (k.instruction w) = .ok next) :
    m.cycle.value = next.tick.endStep := by
  obtain ⟨active, running, inside, rfl⟩ := h
  rcases turn_of_running 0 active running with ⟨f, lost, _⟩ | ⟨other, reached, result⟩
  · rw [attemptOn_of_matches inside shown, met] at lost
    cases lost
  · rw [attemptOn_of_matches inside shown, met] at reached
    cases reached
    rw [cycle, result]

theorem Executes.faults {w : UInt16} {k : Kind} {f : Fault} (h : m.Executes w)
    (shown : k.pattern.matchesWord w = true)
    (met : (m.fetchedOn 0).performOn 0 (k.instruction w) = .error f) :
    m.cycle.value = ((m.fetchedOn 0).halt (some f)).value.endStep := by
  obtain ⟨active, running, inside, rfl⟩ := h
  rcases turn_of_running 0 active running with ⟨g, lost, result⟩ | ⟨other, reached, _⟩
  · rw [attemptOn_of_matches inside shown, met] at lost
    cases lost
    rw [cycle, result]
    rfl
  · rw [attemptOn_of_matches inside shown, met] at reached
    cases reached

@[simp] theorem cycles_zero (m : Machine) : m.cycles 0 = .silent m := rfl

theorem cycles_succ (m : Machine) (n : Nat) :
    m.cycles (n + 1) = m.cycle.andThen fun next => next.cycles n := by
  simp only [cycles, Traced.iterate_succ]
  congr 1
  funext next
  exact Traced.iterate_const cycle n _ next

theorem cycles_one (m : Machine) : m.cycles 1 = m.cycle := by
  simp [cycles_succ, Traced.andThen]

theorem cycles_add (m : Machine) (a b : Nat) :
    m.cycles (a + b) = (m.cycles a).andThen fun next => next.cycles b := by
  simp only [cycles, Traced.iterate_add]
  congr 1
  funext next
  exact Traced.iterate_const cycle b _ next

theorem cycles_concat (m : Machine) (n : Nat) :
    m.cycles (n + 1) = (m.cycles n).andThen cycle :=
  Traced.iterate_concat _ n 0 m

/-- The machines that the cycles of a run start from. -/
def turnsOf (m : Machine) (n : Nat) : List Machine :=
  (List.range n).map fun k => (m.cycles k).value

theorem mem_turnsOf {n k : Nat} (hk : k < n) : (m.cycles k).value ∈ m.turnsOf n :=
  List.mem_map_of_mem (List.mem_range.mpr hk)

theorem turnsOf_succ (m : Machine) (n : Nat) :
    m.turnsOf (n + 1) = m.turnsOf n ++ [(m.cycles n).value] := by
  rw [turnsOf, List.range_succ, List.map_append]
  rfl

theorem cycle_of_halted (h : m.status = .halted) : m.cycle = .silent m.endStep :=
  cycleOn_rest (by simp [isActive, h])

/-- However long it runs, a halted machine reports nothing and changes at most its run mode, by
using up a pending single step. -/
theorem cycles_of_halted (h : m.status = .halted) (n : Nat) :
    ∃ mode, m.cycles n = .silent { m with runMode := mode } := by
  induction n generalizing m with
  | zero => exact ⟨m.runMode, rfl⟩
  | succ n ih =>
    obtain ⟨mode, he⟩ := ih (m := m.endStep) h
    refine ⟨mode, ?_⟩
    rw [cycles_succ, cycle_of_halted h, Traced.silent_andThen, he]
    rfl

theorem cycles_halted_mono {a b : Nat} (hab : a ≤ b) (h : (m.cycles a).value.status = .halted) :
    (m.cycles b).value.status = .halted := by
  obtain ⟨d, rfl⟩ := Nat.exists_eq_add_of_le hab
  obtain ⟨mode, he⟩ := cycles_of_halted h d
  rw [cycles_add, Traced.andThen_value, he]
  exact h

end Machine

end Chip8
