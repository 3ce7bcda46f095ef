import Chip8.Proofs.Marks
import Mathlib.Data.List.Induction

namespace Chip8

def RunMode.after (mode : RunMode) : Action → RunMode
  | .cycle => if mode = .stepPending then .paused else mode
  | .pause => .paused
  | .resume | .restart _ => .running
  | .singleStep => if mode = .paused then .stepPending else mode
  | _ => mode

namespace Action

/-- Whether an action is a cycle, or touches only the marks of a machine. -/
def isDebug : Action → Bool
  | cycle | pause | resume | singleStep | clearRedraw | clearBeeps => true
  | keyDown _ | keyUp _ | restart _ => false

theorem isRestart_of_isDebug {a : Action} (h : a.isDebug = true) : a.isRestart = false := by
  cases a <;> first | rfl | cases h

/-- The actions since the last one of some kind, the newest first. They are all the actions if
there was none of that kind. -/
def since (kind : Action → Bool) (actions : List Action) : List Action :=
  actions.reverse.takeWhile fun a => !kind a

theorem since_append (kind : Action → Bool) (actions : List Action) (a : Action) :
    since kind (actions ++ [a]) = if kind a then [] else a :: since kind actions := by
  cases h : kind a <;> simp [since, h]

/-- Whether a pause was made since the last resume. -/
def Paused (earlier : List Action) : Prop :=
  .pause ∈ since (· == .resume) earlier

/-- Whether a single step was asked for since the last pause and the last cycle. -/
def Stepped (earlier : List Action) : Prop :=
  .singleStep ∈ since (fun a => a == .pause || a == .cycle) earlier

instance (earlier : List Action) : Decidable (Paused earlier) :=
  inferInstanceAs (Decidable (_ ∈ _))

instance (earlier : List Action) : Decidable (Stepped earlier) :=
  inferInstanceAs (Decidable (_ ∈ _))

end Action

open Chip8.Action

/-- The run mode that actions lead to from a running one can be told from their order. -/
theorem foldl_after (actions : List Action) (kept : ∀ a ∈ actions, a.isRestart = false) :
    actions.foldl RunMode.after .running =
      if Paused actions then if Stepped actions then .stepPending else .paused else .running := by
  induction actions using List.reverseRecOn with
  | nil => rfl
  | append_singleton earlier a ih =>
    rw [List.forall_mem_append, List.forall_mem_singleton] at kept
    rw [List.foldl_append, List.foldl_cons, List.foldl_nil, ih kept.1]
    simp only [Paused, Stepped, since_append]
    cases a with
    | restart program => cases kept.2
    | _ =>
      by_cases paused : Action.pause ∈ since (· == .resume) earlier <;>
      by_cases stepped : Action.singleStep ∈ since (fun a => a == .pause || a == .cycle) earlier <;>
        simp [RunMode.after, paused, stepped]

namespace Machine

/-- How many of the actions are cycles that find the machine not paused. -/
def turns (m : Machine) : List Action → Nat
  | [] => 0
  | a :: rest => (if a = .cycle ∧ m.runMode ≠ .paused then 1 else 0) + (m.act a).turns rest

variable {m m' : Machine}

theorem act_runMode (m : Machine) (a : Action) : (m.act a).runMode = m.runMode.after a := by
  cases a with
  | cycle => exact cycle_runMode m
  | _ => rfl

theorem actAll_runMode (m : Machine) (actions : List Action) :
    (m.actAll actions).runMode = actions.foldl RunMode.after m.runMode := by
  induction actions generalizing m with
  | nil => rfl
  | cons a rest ih =>
    rw [List.foldl_cons, ← act_runMode]
    exact ih (m.act a)

theorem eq_of_hide (h : Veil.marks.hide m = Veil.marks.hide m') :
    m = { m' with runMode := m.runMode, needsRedraw := m.needsRedraw, beeps := m.beeps } :=
  congrArg (fun n : Machine => { n with
    runMode := m.runMode, needsRedraw := m.needsRedraw, beeps := m.beeps }) h

/-- Under the veil, what a debugger does is a cycle that is let through or nothing. -/
theorem act_hide {a : Action} (debug : a.isDebug = true) :
    Veil.marks.hide (m.act a) = Veil.marks.hide
      ((Veil.marks.hide m).cycles (if a = .cycle ∧ m.runMode ≠ .paused then 1 else 0)).value := by
  cases a with
  | cycle =>
    by_cases paused : m.runMode = .paused
    · have idle : m.isActive = false := by simp [isActive, paused]
      have still : m.act .cycle = m.endStep := by rw [act, cycle, cycleOn_rest idle]; rfl
      simp only [paused, ne_eq, not_true_eq_false, and_false, ↓reduceIte, cycles_zero, still,
        Traced.silent_value, hide_hide]
      rfl
    · have going : (m.runMode != .paused) = true := bne_iff_ne.mpr paused
      have same : (Veil.marks.hide m).isActive = m.isActive := by
        rw [isActive, isActive, hide_status, going]
        rfl
      simp only [paused, ne_eq, not_false_eq_true, and_self, ↓reduceIte, cycles_one]
      exact (cycle_hide same).symm
  | keyDown key | keyUp key | restart program => cases debug
  | _ => rfl

theorem actAll_hide {actions : List Action} (debug : ∀ a ∈ actions, a.isDebug = true) :
    Veil.marks.hide (m.actAll actions) =
      Veil.marks.hide ((Veil.marks.hide m).cycles (m.turns actions)).value := by
  -- The run on the right starts from a machine whose marks are hidden, so that it is never paused.
  induction actions generalizing m with
  | nil => exact (hide_hide _ m).symm
  | cons a rest ih =>
    have here := act_hide (m := m) (debug a List.mem_cons_self)
    have later := ih (m := m.act a) fun b hb => debug b (List.mem_cons_of_mem a hb)
    have spared := (Veil.Spares.hide .marks m).cycles
      (if a = .cycle ∧ m.runMode ≠ .paused then 1 else 0)
    rw [here, cycles_hide spared] at later
    rw [turns, cycles_add]
    exact later

/-- A running machine that is only run and debugged ends up where its cycles alone lead to, but
for its marks. Only the cycles that find it not paused count, and these are the ones before which
no pause was made since the last resume, or a single step was asked for since the last pause and
the last cycle. -/
theorem debugging_transparent (running : m.runMode = .running) {actions : List Action}
    (debug : ∀ a ∈ actions, a.isDebug = true) :
    (∃ mode redraw beeps, m.actAll actions =
      { (m.cycles (m.turns actions)).value with
        runMode := mode, needsRedraw := redraw, beeps := beeps }) ∧
    ∀ earlier, earlier ++ [.cycle] <+: actions →
      ((m.actAll earlier).runMode ≠ .paused ↔ ¬ Paused earlier ∨ Stepped earlier) := by
  refine ⟨?_, ?_⟩
  · have spared : Veil.marks.Spares m := running.symm
    have same := actAll_hide (m := m) debug
    rw [cycles_hide spared] at same
    exact ⟨_, _, _, eq_of_hide same⟩
  · intro earlier before
    have kept : ∀ a ∈ earlier, a.isRestart = false := fun a ha =>
      isRestart_of_isDebug (debug a (before.subset (List.mem_append_left _ ha)))
    rw [actAll_runMode, running, foldl_after earlier kept]
    by_cases paused : Paused earlier <;> by_cases stepped : Stepped earlier <;>
      simp [paused, stepped]

/-- Two steps are asked for and one cycle is let through. -/
theorem debugging_transparent_when_stepped :
    let m := (boot ⟨0, 0⟩ [0x6A, 0x42, 0x6B, 0x42]).value
    let asked : List Action := [.cycle, .pause, .singleStep, .singleStep]
    (m.runMode = .running ∧ (∀ a ∈ asked ++ [.cycle, .cycle], a.isDebug = true) ∧
      m.turns (asked ++ [.cycle, .cycle]) = 2) ∧
    (∃ mode redraw beeps, m.actAll (asked ++ [.cycle, .cycle]) =
      { (m.cycles 2).value with runMode := mode, needsRedraw := redraw, beeps := beeps }) ∧
    ((m.actAll asked).runMode ≠ .paused ↔ ¬ Paused asked ∨ Stepped asked) := by
  intro m asked
  have debug : ∀ a ∈ asked ++ [.cycle, .cycle], a.isDebug = true := by decide
  have counted : m.turns (asked ++ [.cycle, .cycle]) = 2 := by decide +kernel
  obtain ⟨same, told⟩ := debugging_transparent (m := m) rfl debug
  rw [counted] at same
  exact ⟨⟨rfl, debug, counted⟩, same, told asked (by decide)⟩

/-- A further pause forgets a step that was asked for. -/
example : Paused [.pause, .singleStep, .pause] ∧ ¬ Stepped [.pause, .singleStep, .pause] := by
  decide

end Machine

end Chip8
