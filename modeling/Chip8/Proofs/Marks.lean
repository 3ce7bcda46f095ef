import Chip8.Proofs.Reachability

namespace Chip8.Machine

/-- Which marks are hidden: the beep counter, or all three. -/
inductive Veil where
  | beeps
  | marks

/-- A machine with its hidden marks as they are at power-on. -/
def Veil.hide : Veil → Machine → Machine
  | beeps, m => m.clearBeeps
  | marks, m => { m with runMode := .running, needsRedraw := false, beeps := 0 }

variable {v : Veil} {m m' : Machine}

@[simp] theorem hide_pc (v : Veil) (m : Machine) : (v.hide m).pc = m.pc := by
  cases v <;> rfl

@[simp] theorem hide_status (v : Veil) (m : Machine) : (v.hide m).status = m.status := by
  cases v <;> rfl

@[simp] theorem hide_opcode (v : Veil) (m : Machine) : (v.hide m).opcode = m.opcode := by
  cases v <;> rfl

@[simp] theorem hide_keypad (v : Veil) (m : Machine) : (v.hide m).keypad = m.keypad := by
  cases v <;> rfl

@[simp] theorem hide_hide (v : Veil) (m : Machine) : v.hide (v.hide m) = v.hide m := by
  cases v <;> rfl

/-- A step that looks through the veil at nothing takes machines that agree under it to machines
that do. -/
theorem congr_hide {f : Machine → Machine} (blind : ∀ m, v.hide (f (v.hide m)) = v.hide (f m))
    (h : v.hide m = v.hide m') : v.hide (f m) = v.hide (f m') := by
  rw [← blind m, h, blind m']

theorem performOn_hide (v : Veil) (bus : UInt8) (m : Machine) (i : Instruction) :
    ((v.hide m).performOn bus i).map v.hide = (m.performOn bus i).map v.hide := by
  cases i with
  | arithmetic op x y => cases op <;> cases v <;> rfl
  | _ =>
    simp only [performOn]
    first
    | (cases v <;> rfl)
    | (simp only [apply_ite (Except.map _)]
       cases v <;> rfl)

theorem attemptOn_hide (v : Veil) (bus : UInt8) (m : Machine) :
    ((v.hide m).attemptOn bus).map v.hide = (m.attemptOn bus).map v.hide := by
  have hp := performOn_hide v bus (m.fetchedOn bus) (.ofWord (m.wordOn bus))
  unfold attemptOn
  rw [apply_ite (Except.map _), apply_ite (Except.map _), ← hp]
  cases v <;> rfl

theorem settle_hide {reports reports' : List Report} {attempt attempt' : Except Fault Machine}
    (hm : v.hide m = v.hide m') (ha : attempt.map v.hide = attempt'.map v.hide) :
    v.hide (m.settle reports attempt).value = v.hide (m'.settle reports' attempt').value := by
  cases attempt with
  | ok next =>
    cases attempt' with
    | ok next' => exact Except.ok.inj ha
    | error f => cases ha
  | error f =>
    cases attempt' with
    | ok next' => cases ha
    | error f' =>
      cases ha
      exact congr_hide (f := fun n => (n.halt (some f)).value) (by intro n; cases v <;> rfl) hm

theorem fetchOn_hide (v : Veil) (bus : UInt8) (m : Machine) :
    v.hide ((v.hide m).fetchOn bus).value = v.hide (m.fetchOn bus).value := by
  by_cases outside : memorySize ≤ m.pc.toNat + 1
  · have hidden : memorySize ≤ (v.hide m).pc.toNat + 1 := by rwa [hide_pc]
    rw [fetchOn_outside outside, fetchOn_outside hidden]
    cases v <;> rfl
  · have inside := Nat.lt_of_not_le outside
    have hidden : (v.hide m).pc.toNat + 1 < memorySize := by rwa [hide_pc]
    rw [fetchOn_inside inside, fetchOn_inside hidden]
    cases v <;> rfl

theorem executeOn_hide (v : Veil) (bus : UInt8) (m : Machine) (w : UInt16) :
    v.hide ((v.hide m).executeOn bus w).value = v.hide (m.executeOn bus w).value := by
  have hp := performOn_hide v bus { m with opcode := w } (.ofWord w)
  unfold executeOn
  apply settle_hide
  · cases v <;> rfl
  · rw [← hp]
    cases v <;> rfl

theorem pollKeypad_hide (v : Veil) (m : Machine) :
    v.hide (v.hide m).pollKeypad = v.hide m.pollKeypad := by
  simp only [pollKeypad, hide_keypad]
  cases m.keypad.lowest? <;> cases v <;> rfl

theorem tickUnlessHalted_hide (v : Veil) (m : Machine) :
    v.hide (v.hide m).tickUnlessHalted = v.hide m.tickUnlessHalted := by
  unfold tickUnlessHalted
  rw [hide_status, apply_ite v.hide, apply_ite v.hide]
  cases v <;> rfl

theorem proceedOn_hide (v : Veil) (bus : UInt8) (m : Machine) :
    v.hide ((v.hide m).proceedOn bus).value = v.hide (m.proceedOn bus).value := by
  simp only [proceedOn, hide_status, hide_opcode]
  cases m.status.nearest with
  | running => exact congr_hide (tickUnlessHalted_hide v) (executeOn_hide v bus m m.opcode)
  | awaitingKey => exact pollKeypad_hide v m
  | _ => exact hide_hide v m

theorem endStep_hide (v : Veil) (m : Machine) : v.hide (v.hide m).endStep = v.hide m.endStep := by
  cases v <;> rfl

/-- No cycle looks through the veil, as long as hiding the run mode wakes no paused machine. -/
theorem cycle_hide (same : (v.hide m).isActive = m.isActive) :
    v.hide (v.hide m).cycle.value = v.hide m.cycle.value := by
  cases active : m.isActive with
  | false =>
    rw [cycle, cycle, cycleOn_rest active, cycleOn_rest (same.trans active)]
    exact endStep_hide v m
  | true =>
    rw [cycle, cycle, cycleOn_active active, cycleOn_active (same.trans active)]
    have gone := congr_hide (f := fun n => (n.proceedOn 0).value) (proceedOn_hide v 0)
      (fetchOn_hide v 0 m)
    exact congr_hide (endStep_hide v) gone

theorem settle_runMode {reports : List Report} {attempt : Except Fault Machine}
    (kept : ∀ next, attempt = .ok next → next.runMode = m.runMode) :
    (m.settle reports attempt).value.runMode = m.runMode := by
  cases attempt with
  | ok next => exact kept next rfl
  | error f => rfl

theorem proceedOn_runMode (bus : UInt8) (m : Machine) :
    (m.proceedOn bus).value.runMode = m.runMode := by
  have ticked : ∀ n : Machine, n.tickUnlessHalted.runMode = n.runMode := by
    intro n
    unfold tickUnlessHalted
    split <;> rfl
  unfold proceedOn
  split
  · rw [Traced.map_value, ticked]
    exact settle_runMode fun next met => (performOn_kept met).1
  · unfold pollKeypad
    split <;> rfl
  · rfl

/-- A cycle uses up a pending single step and leaves every other run mode alone. -/
theorem cycle_runMode (m : Machine) : m.cycle.value.runMode = m.endStep.runMode := by
  cases active : m.isActive with
  | false =>
    rw [cycle, cycleOn_rest active]
    rfl
  | true =>
    have fetched : (m.fetchOn 0).value.runMode = m.runMode := by
      apply settle_runMode
      intro next met
      split at met <;> cases met
      rfl
    rw [cycle, cycleOn_active active]
    simp only [Traced.map_value, Traced.andThen_value, endStep, proceedOn_runMode, fetched]

/-- Whether a veil shows the run mode as it is. -/
def Veil.Spares (v : Veil) (m : Machine) : Prop :=
  (v.hide m).runMode = m.runMode

namespace Veil.Spares

theorem isActive (h : v.Spares m) : (v.hide m).isActive = m.isActive := by
  unfold Machine.isActive
  rw [h, hide_status]

theorem hide (v : Veil) (m : Machine) : v.Spares (v.hide m) := by
  unfold Spares
  rw [hide_hide]

theorem cycle (h : v.Spares m) : v.Spares m.cycle.value := by
  cases v with
  | beeps => rfl
  | marks =>
    have running : RunMode.running = m.runMode := h
    change RunMode.running = m.cycle.value.runMode
    rw [cycle_runMode, endStep, ← running]
    rfl

theorem cycles (h : v.Spares m) (n : Nat) : v.Spares (m.cycles n).value := by
  induction n generalizing m with
  | zero => exact h
  | succ n ih =>
    rw [cycles_succ]
    exact ih h.cycle

end Veil.Spares

theorem cycles_hide (h : v.Spares m) (n : Nat) :
    v.hide ((v.hide m).cycles n).value = v.hide (m.cycles n).value := by
  induction n generalizing m with
  | zero => exact hide_hide v m
  | succ n ih =>
    -- The next machines agree only under the veil, so `ih` is used on both sides.
    simp only [cycles_succ, Traced.andThen_value]
    rw [← ih (Veil.Spares.hide v m).cycle, cycle_hide h.isActive, ih h.cycle]

end Chip8.Machine
