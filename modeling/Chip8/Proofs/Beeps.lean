import Chip8.Proofs.Coherence
import Chip8.Proofs.Marks

namespace Chip8.Machine

/-- The machine that the next instruction leads to, before the timers are counted down. There is
none if the next cycle completes no instruction. -/
def executed? (m : Machine) : Option Machine :=
  if m.isActive = true ∧ m.status = .running then (m.attemptOn 0).toOption else none

/-- Whether the sound timer runs out in the next cycle. -/
def expires (m : Machine) : Bool :=
  m.executed?.any (·.soundTimer == 1)

/-- How often the sound timer runs out in so many cycles, counted from the one of a number. -/
def expiries (m : Machine) (first n : Nat) : Nat :=
  (List.range n).countP fun k => (m.cycles (first + k)).value.expires

variable {bus : UInt8} {m : Machine}

/-- No cycle reads the beep counter. -/
theorem cycle_clearBeeps (m : Machine) :
    m.clearBeeps.cycle.value.clearBeeps = m.cycle.value.clearBeeps :=
  cycle_hide (v := .beeps) rfl

/-- A run goes the same way whatever the beep counter holds. -/
theorem cycles_clearBeeps (m : Machine) (n : Nat) :
    (m.clearBeeps.cycles n).value.clearBeeps = (m.cycles n).value.clearBeeps :=
  cycles_hide (v := .beeps) rfl n

theorem expires_clearBeeps (m : Machine) : m.clearBeeps.expires = m.expires := by
  -- Clearing the counter of the machine reached does not touch its sound timer.
  have seen : ∀ n : Machine, n.expires =
      (if n.isActive = true ∧ n.status = .running then
        ((n.attemptOn 0).map clearBeeps).toOption else none).any (·.soundTimer == 1) := by
    intro n
    unfold expires executed?
    split
    · cases n.attemptOn 0 <;> rfl
    · rfl
  have same : (m.clearBeeps.attemptOn 0).map clearBeeps = (m.attemptOn 0).map clearBeeps :=
    attemptOn_hide .beeps 0 m
  rw [seen, seen m, same]
  rfl

/-- Machines that agree but for their beep counters run out of sound in the same cycles. -/
theorem expires_congr {m' : Machine} (h : m.clearBeeps = m'.clearBeeps) :
    m.expires = m'.expires := by
  rw [← expires_clearBeeps, h, expires_clearBeeps]

/-- Once a run is cut and the beeps are acknowledged, later cycles are those of the run. -/
theorem cycles_cut (m : Machine) (a b : Nat) :
    (((m.cycles a).value.clearBeeps).cycles b).value.clearBeeps =
      (m.cycles (a + b)).value.clearBeeps := by
  rw [cycles_clearBeeps, cycles_add]
  rfl

theorem expiries_cut (m : Machine) (a first n : Nat) :
    ((m.cycles a).value.clearBeeps).expiries first n = m.expiries (a + first) n := by
  apply List.countP_congr
  intro k _
  rw [expires_congr (cycles_cut m a (first + k)), Nat.add_assoc]

theorem expiries_add (m : Machine) (first a b : Nat) :
    m.expiries first (a + b) = m.expiries first a + m.expiries (first + a) b := by
  simp only [expiries, List.range_add, List.countP_append, List.countP_map, Function.comp_def,
    Nat.add_assoc]

theorem expiries_one (m : Machine) (first : Nat) :
    m.expiries first 1 = if (m.cycles first).value.expires then 1 else 0 := by
  simp [expiries, List.countP_cons]

/-- A tick counts one beep at most, and none past 255. -/
theorem beeps_tick (m : Machine) :
    m.tick.beeps.toNat = min 255 (m.beeps.toNat + if m.soundTimer = 1 then 1 else 0) := by
  have hb := m.beeps.toNat_lt
  by_cases room : m.beeps.toNat < 255
  · have hr : m.beeps < 255 := UInt8.lt_iff_toNat_lt.mpr room
    by_cases last : m.soundTimer = 1
    · simp only [tick, last, hr, and_self, ↓reduceIte, UInt8.toNat_add, UInt8.reduceToNat]
      omega
    · simp only [tick, last, false_and, ↓reduceIte]
      omega
  · have hr : ¬ m.beeps < 255 := fun h => room (UInt8.lt_iff_toNat_lt.mp h)
    simp only [tick, hr, and_false, ↓reduceIte]
    omega

theorem executed?_rest (idle : m.isActive = false) : m.executed? = none := by
  simp [executed?, idle]

theorem executed?_waiting (waiting : m.status = .awaitingKey) : m.executed? = none := by
  simp [executed?, waiting]

theorem executed?_running (active : m.isActive = true) (running : m.status = .running) :
    m.executed? = (m.attemptOn 0).toOption :=
  if_pos ⟨active, running⟩

/-- A cycle in which the sound timer runs out counts a beep, and no other cycle does. -/
theorem beeps_cycle (named : m.status.name?.isSome = true) :
    m.cycle.value.beeps.toNat = min 255 (m.beeps.toNat + if m.expires then 1 else 0) := by
  have hb := m.beeps.toNat_lt
  -- All cycles but those that complete an instruction leave the counter alone.
  have kept : m.executed? = none → m.cycle.value.beeps = m.beeps →
      m.cycle.value.beeps.toNat = min 255 (m.beeps.toNat + if m.expires then 1 else 0) := by
    intro he hk
    have quiet : m.expires = false := by rw [expires, he]; rfl
    simp only [hk, quiet, Bool.false_eq_true, ↓reduceIte]
    omega
  cases turnOn 0 m named with
  | rest idle result =>
    refine kept (executed?_rest idle) ?_
    rw [cycle, result]
    rfl
  | poll _ waiting _ result =>
    refine kept (executed?_waiting waiting) ?_
    rw [cycle, result]
    unfold pollKeypad
    split <;> rfl
  | lost _ waiting _ result =>
    refine kept (executed?_waiting waiting) ?_
    rw [cycle, result]
    rfl
  | fault f active running met result =>
    refine kept ?_ ?_
    · rw [executed?_running active running, met]
      rfl
    · rw [cycle, result]
      rfl
  | complete next active running met result =>
    have he : m.expires = (next.soundTimer == 1) := by
      rw [expires, executed?_running active running, met]
      rfl
    have hk : next.beeps = m.beeps := (performOn_kept (attemptOn_inside met).2).2.2.2
    have ht := beeps_tick next
    rw [hk] at ht
    rw [cycle, result, he]
    simp only [beq_iff_eq]
    exact ht

/-- After a run the counter holds what it held before and the expiries on the way, up to 255. -/
theorem beeps_cycles (h : m.Coherent) (n : Nat) :
    (m.cycles n).value.beeps.toNat = min 255 (m.beeps.toNat + m.expiries 0 n) := by
  induction n with
  | zero =>
    have hb := m.beeps.toNat_lt
    simp only [cycles_zero, Traced.silent_value, expiries, List.range_zero, List.countP_nil]
    omega
  | succ n ih =>
    have hc := beeps_cycle (h.cycles n).status_named
    rw [ih] at hc
    rw [cycles_add, Traced.andThen_value, cycles_one, hc, expiries_add, expiries_one]
    simp only [Nat.zero_add]
    omega

end Chip8.Machine
