import Chip8.Proofs.Coherence
import Chip8.Session.Request

namespace Chip8

/-- The number of cycles a request runs, if it runs cycles. A negative number runs none. -/
def Request.cycles? (s : Session) : Request → Option Nat
  | .runCycle => some 1
  | .runFrame => some s.cyclesPerFrame
  | .run cycles _ => some cycles.toNat
  | _ => none

namespace Session

variable {s : Session}

/-- The machines that the cycles of a request start from. -/
def turns (s : Session) (r : Request) : List Machine :=
  match r.cycles? s with
  | some n => if s.isLoaded then s.machine.turnsOf n else []
  | none => []

theorem turns_of_loaded (loaded : s.isLoaded = true) {r : Request} {n : Nat}
    (asked : r.cycles? s = some n) :
    s.turns r = s.machine.turnsOf n := by
  simp only [turns, asked, loaded, ↓reduceIte]

/-- What a run says while it lasts: reports of its cycles and calls to the bar. -/
def Tells (events : List Event) (reports : List Report) : Prop :=
  ∀ e ∈ events, (∃ r ∈ reports, e = .report r) ∨ ∃ call, e = .bar call

theorem tells_reports (t : Traced Report Machine) :
    Tells (t.relabel Event.report).trace t.trace := by
  intro e he
  obtain ⟨r, hr, rfl⟩ := List.mem_map.mp he
  exact .inl ⟨r, hr, rfl⟩

theorem ran_spec (s : Session) (cycles : Int) (progress : Bool) :
    (s.ran cycles progress).value = (s.machine.cycles cycles.toNat).value ∧
      Tells (s.ran cycles progress).trace (s.machine.cycles cycles.toNat).trace := by
  cases progress with
  | false => exact ⟨rfl, tells_reports _⟩
  | true =>
    obtain ⟨reached, said⟩ :=
      (bar cycles).iterate_spec (fun _ => Machine.cycle) cycles.toNat s.machine
    refine ⟨reached, ?_⟩
    intro e he
    obtain ⟨x, hx, rfl⟩ := List.mem_map.mp he
    cases x with
    | inl call => exact .inr ⟨call, rfl⟩
    | inr r =>
      have told : r ∈ Progress.words _ := List.mem_filterMap.mpr ⟨_, hx, rfl⟩
      exact .inl ⟨r, said ▸ told, rfl⟩

/-- A request that runs cycles takes over the machine that this many cycles lead to. -/
theorem handle_run (loaded : s.isLoaded = true) {r : Request} {n : Nat}
    (hr : r.cycles? s = some n) :
    ∃ ran reply, s.handle r = s.commit ran reply ∧ ran.value = (s.machine.cycles n).value ∧
      Tells ran.trace (s.machine.cycles n).trace := by
  cases r with
  | runCycle =>
    cases hr
    refine ⟨s.machine.cycle.relabel .report, .done, if_pos loaded, ?_⟩
    rw [Machine.cycles_one]
    exact ⟨rfl, tells_reports _⟩
  | runFrame =>
    cases hr
    exact ⟨(s.machine.cycles s.cyclesPerFrame).relabel .report, _, if_pos loaded, rfl,
      tells_reports _⟩
  | run cycles progress =>
    cases hr
    exact ⟨s.ran cycles progress, .done, if_pos loaded, ran_spec s cycles progress⟩
  | _ => cases hr

/-- Without a program a request that runs cycles is only answered. -/
theorem handle_run_idle (idle : s.isLoaded = false) {r : Request} {n : Nat}
    (hr : r.cycles? s = some n) :
    ∃ reply, s.handle r = s.answer (.ok reply) := by
  have hl : ¬ s.isLoaded = true := by simp [idle]
  cases r with
  | runCycle | runFrame | run _ _ => exact ⟨_, if_neg hl⟩
  | _ => cases hr

end Session

end Chip8
