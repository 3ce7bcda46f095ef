import Chip8.Proofs.Loading

namespace Chip8

namespace Machine

/-- What is left of latch and display where nothing clears them: the latch is set, or both are as
they were. -/
def Redrawn (m next : Machine) : Prop :=
  next.needsRedraw = true ∨ next.needsRedraw = m.needsRedraw ∧ next.display = m.display

variable {bus : UInt8} {m n next : Machine}

theorem Redrawn.refl (m : Machine) : m.Redrawn m :=
  .inr ⟨rfl, rfl⟩

theorem Redrawn.trans (h : m.Redrawn n) (h' : n.Redrawn next) : m.Redrawn next := by
  rcases h' with drawn | ⟨latch', display'⟩
  · exact .inl drawn
  · rcases h with drawn | ⟨latch, display⟩
    · exact .inl (latch'.trans drawn)
    · exact .inr ⟨latch'.trans latch, display'.trans display⟩

/-- The instructions that write the display set the latch. -/
theorem performOn_redrawn {i : Instruction} (h : m.performOn bus i = .ok next) :
    m.Redrawn next := by
  cases i with
  | clearScreen =>
    cases h
    exact .inl rfl
  | draw x y height =>
    simp only [performOn] at h
    split at h <;> cases h
    exact .inl rfl
  | arithmetic op x y =>
    cases h
    rw [compute_eq]
    exact .inr ⟨rfl, rfl⟩
  | _ =>
    simp only [performOn] at h
    first
    | (cases h; exact .inr ⟨rfl, rfl⟩)
    | (split at h <;> cases h; exact .inr ⟨rfl, rfl⟩)

theorem pollKeypad_redrawn (m : Machine) : m.Redrawn m.pollKeypad := by
  unfold pollKeypad
  split <;> exact .inr ⟨rfl, rfl⟩

theorem cycle_redrawn (named : m.status.name?.isSome = true) : m.Redrawn m.cycle.value := by
  cases turnOn 0 m named with
  | rest _ result | lost _ _ _ result | fault _ _ _ _ result =>
    rw [cycle, result]
    exact .inr ⟨rfl, rfl⟩
  | poll _ _ _ result =>
    rw [cycle, result]
    exact pollKeypad_redrawn (m.fetchedOn 0)
  | complete next _ _ met result =>
    rw [cycle, result]
    have drawn : (m.fetchedOn 0).Redrawn next := performOn_redrawn (attemptOn_inside met).2
    exact drawn

theorem Coherent.cycles_redrawn (h : m.Coherent) (n : Nat) : m.Redrawn (m.cycles n).value := by
  induction n generalizing m with
  | zero => exact .refl m
  | succ n ih =>
    rw [cycles_succ]
    exact (cycle_redrawn h.status_named).trans (ih h.cycle)

end Machine

/-- Whether a request is answered that the display is to be drawn, and takes that as done. -/
def Request.redraws (s : Session) : Request → Bool
  | .consumeRedraw => s.machine.needsRedraw
  | _ => false

namespace Session

open Machine

/-- The display as it was when a host was told last to draw it. -/
def lastDrawn (s : Session) (drawn : Display) : List Request → Display
  | [] => drawn
  | r :: rest =>
    (s.handle r).session.lastDrawn (if r.redraws s then s.machine.display else drawn) rest

/-- Whether the machine was started over since then. -/
def startedOver (s : Session) (anew : Bool) : List Request → Bool
  | [] => anew
  | r :: rest => (s.handle r).session.startedOver (!r.redraws s && (anew || r.restarts s)) rest

/-- Unless the host is about to be told to draw it, the display is the one that is expected. -/
def Expects (s : Session) (expected : Display) : Prop :=
  s.machine.needsRedraw = false → s.machine.display = expected

variable {config : Config} {s opened : Session} {r : Request} {expected : Display}

theorem Expects.redrawn (h : s.Expects expected) {next : Session}
    (same : s.machine.Redrawn next.machine) : next.Expects expected := by
  intro clear
  rcases same with drawn | ⟨latch, display⟩
  · simp [clear] at drawn
  · rw [display]
    exact h (latch.symm.trans clear)

theorem Coherent.run_redrawn (h : s.Coherent) {n : Nat} (asked : r.cycles? s = some n) :
    s.machine.Redrawn (s.handle r).session.machine := by
  cases loaded : s.isLoaded with
  | true =>
    obtain ⟨ran, reply, result, reached, _⟩ := handle_run loaded asked
    have ended : s.machine.Redrawn ran.value := reached ▸ h.machine.cycles_redrawn n
    rw [result]
    exact ended
  | false =>
    obtain ⟨reply, result⟩ := handle_run_idle loaded asked
    rw [result]
    exact .refl s.machine

theorem latch_redrawn (number : Int) {f : Machine → Nibble → Machine}
    (kept : ∀ key, s.machine.Redrawn (f s.machine key)) :
    s.machine.Redrawn (s.latch number f).session.machine :=
  latch_session (motive := fun t => s.machine.Redrawn t.machine) number (.refl s.machine) kept

/-- Requests that neither start the machine over nor ask for the latch miss no drawing. -/
theorem Coherent.handle_redrawn (h : s.Coherent) (kept : r.restarts s = false)
    (other : r ≠ .consumeRedraw) : s.machine.Redrawn (s.handle r).session.machine := by
  cases r with
  | load program =>
    have same : (s.handle (.load program)).session = s := load_refused kept
    rw [same]
    exact .refl s.machine
  | loadFile name content =>
    cases content with
    | error e => exact .refl s.machine
    | ok program =>
      have same : (s.handle (.loadFile name (.ok program))).session = s := load_refused kept
      rw [same]
      exact .refl s.machine
  | reset reload => cases kept
  | runCycle | runFrame | run _ _ => exact h.run_redrawn rfl
  | pause | resume | singleStep => exact .inr ⟨rfl, rfl⟩
  | keyDown number | keyUp number => exact latch_redrawn number fun _ => .inr ⟨rfl, rfl⟩
  | consumeRedraw => exact absurd rfl other

/-- One request keeps a session to the display that is expected of it. -/
theorem Expects.handle (coherent : s.Coherent) (settled : s.Settled config) {drawn : Display}
    {anew : Bool} (h : s.Expects (if anew then .blank else drawn)) (r : Request) :
    (s.handle r).session.Expects
      (if !r.redraws s && (anew || r.restarts s) then .blank
        else if r.redraws s then s.machine.display else drawn) := by
  -- The latch is asked for, the machine starts over, or whatever draws sets the latch.
  by_cases asked : r = .consumeRedraw
  · subst asked
    intro _
    change s.machine.display = if !s.machine.needsRedraw && (anew || false) then .blank
      else if s.machine.needsRedraw then s.machine.display else drawn
    cases latch : s.machine.needsRedraw with
    | true => simp
    | false => simpa using h latch
  · have silent : r.redraws s = false := by
      cases r <;> first | rfl | exact absurd rfl asked
    cases restarted : r.restarts s with
    | true =>
      have blank : (s.handle r).session.Expects .blank :=
        fun _ => (settled.restart_unlit restarted).1
      simpa [silent, restarted] using blank
    | false =>
      simpa [silent, restarted] using h.redrawn (coherent.handle_redrawn restarted asked)

theorem Expects.after (coherent : s.Coherent) (settled : s.Settled config) {drawn : Display}
    {anew : Bool} (h : s.Expects (if anew then .blank else drawn)) (requests : List Request) :
    (s.after requests).Expects
      (if s.startedOver anew requests then .blank else s.lastDrawn drawn requests) := by
  induction requests generalizing s drawn anew with
  | nil => exact h
  | cons r rest ih => exact ih (coherent.handle r) (settled.handle r) (h.handle coherent settled r)

end Session

end Chip8
