import Chip8.Proofs.Footprints
import Chip8.Proofs.Loading
import Mathlib.Data.List.Induction

namespace Chip8

namespace Machine

/-- Whether the next cycle clears the screen or draws a sprite, and completes. -/
def Draws (m : Machine) : Prop :=
  m.Executes (m.wordOn 0) ∧ Word.IsOf [.clearScreen, .draw] (m.wordOn 0) ∧ ¬ Faults m.cycle

instance (m : Machine) : Decidable m.Draws :=
  inferInstanceAs (Decidable (_ ∧ _ ∧ _))

variable {bus : UInt8} {m next : Machine} {w : UInt16}

theorem not_draws (h : m.isActive = false ∨ m.status ≠ .running ∨ Faults m.cycle) : ¬ m.Draws := by
  rintro ⟨executes, _, completes⟩
  rcases h with idle | other | faults
  · simp [executes.active] at idle
  · exact other executes.running
  · exact completes faults

/-- A word that completes sets the latch if it draws, and leaves it alone if it does not. -/
theorem needsRedraw_of_word (h : m.performOn bus (.ofWord w) = .ok next) :
    next.needsRedraw = (m.needsRedraw || decide (Word.IsOf [.clearScreen, .draw] w)) := by
  by_cases draws : Word.IsOf [.clearScreen, .draw] w
  · rw [decide_eq_true draws, Bool.or_true]
    obtain ⟨k, hk, shown⟩ := draws
    rw [Instruction.ofWord_of_matches shown] at h
    rcases List.mem_cons.mp hk with rfl | hk
    · cases h
      rfl
    · obtain rfl := List.mem_singleton.mp hk
      simp only [Kind.instruction, Kind.withOperands, Operands.ofWord, performOn] at h
      split at h <;> cases h
      rfl
  · rw [decide_eq_false draws, Bool.or_false]
    apply Decidable.byContradiction
    intro changed
    exact draws ((footprint_of_word h).needsRedraw changed)

/-- A cycle sets the latch if it draws, and leaves it alone if it does not. -/
theorem needsRedraw_cycle (named : m.status.name?.isSome = true) :
    m.cycle.value.needsRedraw = (m.needsRedraw || decide m.Draws) := by
  cases turnOn 0 m named with
  | rest idle result =>
    rw [decide_eq_false (not_draws (.inl idle)), Bool.or_false, cycle, result]
    rfl
  | poll _ waiting _ result =>
    have other : m.status ≠ .running := by simp [waiting]
    rw [decide_eq_false (not_draws (.inr (.inl other))), Bool.or_false, cycle, result]
    change (m.fetchedOn 0).pollKeypad.needsRedraw = m.needsRedraw
    unfold pollKeypad
    split <;> rfl
  | lost _ waiting _ result =>
    have other : m.status ≠ .running := by simp [waiting]
    rw [decide_eq_false (not_draws (.inr (.inl other))), Bool.or_false, cycle, result]
    rfl
  | fault f _ _ _ result =>
    have faults : Faults m.cycle := by
      rw [cycle, result]
      exact faults_halt (some f)
    rw [decide_eq_false (not_draws (.inr (.inr faults))), Bool.or_false, cycle, result]
    rfl
  | complete next active running met result =>
    obtain ⟨inside, performed⟩ := attemptOn_inside met
    have drawn : m.Draws ↔ Word.IsOf [.clearScreen, .draw] (m.wordOn 0) := by
      refine ⟨fun draws => draws.2.1, fun shown => ⟨⟨active, running, inside, rfl⟩, shown, ?_⟩⟩
      rw [cycle, result]
      exact not_faults_remarks m _ _
    have latched : next.needsRedraw = _ := needsRedraw_of_word performed
    rw [decide_eq_decide.mpr drawn, cycle, result]
    exact latched

/-- A run of cycles leaves the latch set if it was set or if one of the cycles draws. -/
theorem Coherent.needsRedraw_cycles (h : m.Coherent) (n : Nat) :
    (m.cycles n).value.needsRedraw = true ↔
      m.needsRedraw = true ∨ ∃ t ∈ m.turnsOf n, t.Draws := by
  induction n with
  | zero => simp [turnsOf]
  | succ n ih =>
    rw [cycles_add, Traced.andThen_value, cycles_one,
      needsRedraw_cycle (h.cycles n).status_named, Bool.or_eq_true, decide_eq_true_iff, ih,
      turnsOf_succ]
    simp only [List.mem_append, List.mem_singleton, or_and_right, exists_or, exists_eq_left,
      or_assoc]

end Machine

/-- Whether a request clears the redraw latch: it is answered that the display is to be drawn, it
resets the machine, or it loads a program over another. -/
def Request.Clears (s : Session) : Request → Prop
  | .consumeRedraw => (s.handle .consumeRedraw).outcome = .ok (.redraw true)
  | .reset _ => True
  | r => s.isLoaded = true ∧ r.restarts s = true

namespace Session

open Machine

/-- Whether none of some requests clears the redraw latch. -/
def KeepsLatch (s : Session) : List Request → Prop
  | [] => True
  | r :: rest => ¬ r.Clears s ∧ (s.handle r).session.KeepsLatch rest

/-- Whether something was drawn in the course of requests, with no request after that clears the
redraw latch. -/
def DrawnSince (s : Session) (requests : List Request) : Prop :=
  ∃ before r since, requests = before ++ r :: since ∧
    (∃ m ∈ (s.after before).turns r, m.Draws) ∧ (s.after (before ++ [r])).KeepsLatch since

variable {config : Config} {s opened : Session} {r : Request} {requests : List Request}

theorem keepsLatch_concat :
    s.KeepsLatch (requests ++ [r]) ↔ s.KeepsLatch requests ∧ ¬ r.Clears (s.after requests) := by
  induction requests generalizing s with
  | nil => exact ⟨fun ⟨kept, _⟩ => ⟨trivial, kept⟩, fun ⟨_, kept⟩ => ⟨kept, trivial⟩⟩
  | cons first rest ih =>
    change ¬ first.Clears s ∧ (s.handle first).session.KeepsLatch (rest ++ [r]) ↔ _
    rw [ih, ← and_assoc]
    rfl

/-- A request that runs cycles clears nothing. -/
theorem not_clears_of_turns {m : Machine} (hm : m ∈ s.turns r) : ¬ r.Clears s := by
  cases r with
  | runCycle | runFrame | run _ _ => exact fun ⟨_, restarted⟩ => nomatch restarted
  | _ => cases hm

theorem drawnSince_concat :
    s.DrawnSince (requests ++ [r]) ↔ ¬ r.Clears (s.after requests) ∧
      (s.DrawnSince requests ∨ ∃ m ∈ (s.after requests).turns r, m.Draws) := by
  constructor
  · rintro ⟨before, drawing, since, split, drawn, kept⟩
    -- The last request is the one that drew, or it is the last of those that came after.
    rcases List.eq_nil_or_concat since with rfl | ⟨since, last, rfl⟩
    · obtain ⟨rfl, same⟩ := List.append_inj' split rfl
      obtain ⟨rfl, _⟩ := List.cons.inj same
      obtain ⟨m, hm, draws⟩ := drawn
      exact ⟨not_clears_of_turns hm, .inr ⟨m, hm, draws⟩⟩
    · rw [List.concat_eq_append] at split kept
      rw [← List.cons_append, ← List.append_assoc] at split
      obtain ⟨rfl, same⟩ := List.append_inj' split rfl
      obtain ⟨rfl, _⟩ := List.cons.inj same
      obtain ⟨kept, uncleared⟩ := keepsLatch_concat.mp kept
      refine ⟨?_, .inl ⟨before, drawing, since, rfl, drawn, kept⟩⟩
      rwa [← after_append, List.append_assoc] at uncleared
  · rintro ⟨uncleared, ⟨before, drawing, since, rfl, drawn, kept⟩ | drawn⟩
    · refine ⟨before, drawing, since ++ [r], ?_, drawn, keepsLatch_concat.mpr ⟨kept, ?_⟩⟩
      · rw [List.append_assoc, List.cons_append]
      · rwa [← after_append, List.append_assoc]
    · exact ⟨requests, r, [], rfl, drawn, trivial⟩

theorem Settled.needsRedraw_idle (h : s.Settled config) (idle : s.isLoaded = false) :
    s.machine.needsRedraw = false := by
  obtain ⟨random, keypad, mode, same⟩ := h.idle idle
  rw [same]
  rfl

theorem needsRedraw_latch (number : Int) {f : Machine → Nibble → Machine}
    (kept : ∀ key, (f s.machine key).needsRedraw = s.machine.needsRedraw) :
    (s.latch number f).session.machine.needsRedraw = s.machine.needsRedraw :=
  latch_session (motive := fun t => t.machine.needsRedraw = s.machine.needsRedraw) number rfl kept

theorem Settled.cleared (h : s.Settled config) (asked : r.Clears s) :
    (s.handle r).session.machine.needsRedraw = false := by
  cases r with
  | consumeRedraw => rfl
  | reset reload => exact (h.restart_unlit rfl).2
  | _ => exact (h.restart_unlit asked.2).2

/-- A load that clears nothing leaves the latch alone: it is refused, or there is no program that
could have drawn. -/
theorem Settled.needsRedraw_load (h : s.Settled config) {program : List UInt8}
    (kept : ¬ (s.isLoaded = true ∧ (s.load program).outcome.isOk = true)) :
    (s.load program).session.machine.needsRedraw = s.machine.needsRedraw := by
  cases restarted : (s.load program).outcome.isOk with
  | false => rw [load_refused restarted]
  | true =>
    have idle : s.isLoaded = false := by simpa [restarted] using kept
    have clear : (s.load program).session.machine.needsRedraw = false :=
      (h.restart_unlit (r := .load program) restarted).2
    rw [clear, h.needsRedraw_idle idle]

/-- A request that runs cycles leaves the latch set if it was set or if one of the cycles draws. -/
theorem Coherent.needsRedraw_run (coherent : s.Coherent) {n : Nat} (asked : r.cycles? s = some n) :
    (s.handle r).session.machine.needsRedraw = true ↔
      s.machine.needsRedraw = true ∨ ∃ m ∈ s.turns r, m.Draws := by
  cases loaded : s.isLoaded with
  | true =>
    obtain ⟨ran, reply, result, reached, _⟩ := handle_run loaded asked
    rw [result, turns_of_loaded loaded asked, ← coherent.machine.needsRedraw_cycles n, ← reached]
    rfl
  | false =>
    obtain ⟨reply, result⟩ := handle_run_idle loaded asked
    simp [result, answer, turns, asked, loaded]

theorem needsRedraw_brief (brief : r.cycles? s = none)
    (same : (s.handle r).session.machine.needsRedraw = s.machine.needsRedraw) :
    (s.handle r).session.machine.needsRedraw = true ↔
      s.machine.needsRedraw = true ∨ ∃ m ∈ s.turns r, m.Draws := by
  simp [same, turns, brief]

/-- Unless it clears the latch, a request leaves it set if it was set or if one of its cycles
draws. -/
theorem Settled.needsRedraw_handle (h : s.Settled config) (coherent : s.Coherent)
    (kept : ¬ r.Clears s) :
    (s.handle r).session.machine.needsRedraw = true ↔
      s.machine.needsRedraw = true ∨ ∃ m ∈ s.turns r, m.Draws := by
  cases r with
  | runCycle | runFrame | run _ _ => exact coherent.needsRedraw_run rfl
  | load program => exact needsRedraw_brief rfl (h.needsRedraw_load kept)
  | loadFile name content =>
    cases content with
    | error e => exact needsRedraw_brief rfl rfl
    | ok program => exact needsRedraw_brief rfl (h.needsRedraw_load kept)
  | reset reload => exact absurd trivial kept
  | pause | resume | singleStep => exact needsRedraw_brief rfl rfl
  | keyDown number | keyUp number =>
    exact needsRedraw_brief rfl (needsRedraw_latch number fun _ => rfl)
  | consumeRedraw =>
    refine needsRedraw_brief rfl ?_
    cases latch : s.machine.needsRedraw with
    | false => rfl
    | true => exact absurd (congrArg (fun drawn => Except.ok (Reply.redraw drawn)) latch) kept

/-- The latch of a session tells whether something was drawn since it was cleared. -/
theorem needsRedraw_after (created : create config = .ok opened) (requests : List Request) :
    (opened.after requests).machine.needsRedraw = true ↔ opened.DrawnSince requests := by
  induction requests using List.reverseRecOn with
  | nil =>
    have clear := (settled_create created).needsRedraw_idle (idle_create created)
    refine iff_of_false (by simp [after, clear]) ?_
    rintro ⟨before, r, since, split, _⟩
    simp at split
  | append_singleton requests r ih =>
    have coherent := (coherent_create created).after requests
    have settled := (settled_create created).after requests
    rw [after_concat, drawnSince_concat, ← ih]
    by_cases clears : r.Clears (opened.after requests)
    · simp [settled.cleared clears, clears]
    · simp [settled.needsRedraw_handle coherent clears, clears]

/-- A frame is answered as the latch that it leaves tells. -/
theorem Settled.runFrame_reply (h : s.Settled config) {reply : Reply}
    (answered : (s.handle .runFrame).outcome = .ok reply) :
    reply = .redraw (s.handle .runFrame).session.machine.needsRedraw := by
  cases loaded : s.isLoaded with
  | true =>
    simp only [Session.handle, Session.runFrame, loaded, ↓reduceIte, commit] at answered ⊢
    split at answered <;> cases answered
    rfl
  | false =>
    simp only [Session.handle, Session.runFrame, loaded, Bool.false_eq_true, ↓reduceIte, answer]
      at answered ⊢
    cases answered
    rw [h.needsRedraw_idle loaded]

theorem Coherent.turns (h : s.Coherent) {m : Machine} (hm : m ∈ s.turns r) : m.Coherent := by
  unfold Session.turns at hm
  split at hm
  · split at hm
    · obtain ⟨k, _, rfl⟩ := List.mem_map.mp hm
      exact h.machine.cycles k
    · cases hm
  · cases hm

/-- The redraw latch reports exactly what was drawn. Whatever was asked of a session before, asking
for the latch is answered that the display is to be drawn just if a word that clears the screen or
draws a sprite has completed since that was last answered, since the last reset, since the last load
over a program, and since the session was opened. A frame that does not fail is answered the same.
Any other request leaves the latch as it is, if no such word completes in it, and so does a cycle
that is paused or halted, waits for a key or meets a fault. -/
theorem latch_reports_drawing (created : create config = .ok opened) (earlier : List Request) :
    let s := opened.after earlier
    (∃ drawn, (s.handle .consumeRedraw).outcome = .ok (.redraw drawn) ∧
      (drawn = true ↔ opened.DrawnSince earlier)) ∧
    (∀ reply, (s.handle .runFrame).outcome = .ok reply →
      ∃ drawn, reply = .redraw drawn ∧
        (drawn = true ↔ opened.DrawnSince (earlier ++ [.runFrame]))) ∧
    (∀ r : Request, ¬ r.Clears s → (∀ m ∈ s.turns r, ¬ m.Draws) →
      (s.handle r).session.machine.needsRedraw = s.machine.needsRedraw) ∧
    ∀ r, ∀ m ∈ s.turns r, m.isActive = false ∨ m.status ≠ .running ∨ Faults m.cycle →
      m.cycle.value.needsRedraw = m.needsRedraw := by
  intro s
  have coherent : s.Coherent := (coherent_create created).after earlier
  have settled : s.Settled config := (settled_create created).after earlier
  refine ⟨⟨s.machine.needsRedraw, rfl, needsRedraw_after created earlier⟩, ?_, ?_, ?_⟩
  · intro reply answered
    refine ⟨_, settled.runFrame_reply answered, ?_⟩
    rw [← needsRedraw_after created, after_concat]
  · intro r kept still
    have drawn := settled.needsRedraw_handle coherent kept
    rw [Bool.eq_iff_iff, drawn, or_iff_left]
    rintro ⟨m, hm, draws⟩
    exact still m hm draws
  · intro r m hm idle
    rw [needsRedraw_cycle (coherent.turns hm).status_named, decide_eq_false (not_draws idle),
      Bool.or_false]

/-- A sprite without rows counts as drawn, also if the batch that it is in ends in a fault. The
sprite that meets the fault does not count, and once the display is taken as drawn the halted
machine has nothing to report. -/
theorem latch_reports_drawing_of_no_rows :
    let program : List UInt8 := [0xD0, 0x00, 0xAF, 0xFF, 0xD0, 0x05]
    let batch : List Request := [.load program, .run 5 true]
    let taken := batch ++ [.consumeRedraw]
    create .standard = .ok standard ∧
    ((standard.after [.load program]).handle (.run 5 true)).halt? =
      some ⟨some .addressOutOfRange, 0x204, 0xD005⟩ ∧
    ((standard.after batch).handle .consumeRedraw).outcome = .ok (.redraw true) ∧
    standard.DrawnSince batch ∧
    ((standard.after taken).handle .runFrame).outcome = .ok (.redraw false) ∧
    ¬ standard.DrawnSince (taken ++ [.runFrame]) := by
  intro program batch taken
  have asked : ((standard.after batch).handle .consumeRedraw).outcome = .ok (.redraw true) := by
    decide +kernel
  have framed : ((standard.after taken).handle .runFrame).outcome = .ok (.redraw false) := by
    decide +kernel
  obtain ⟨⟨drawn, answered, since⟩, _⟩ := latch_reports_drawing create_standard batch
  obtain ⟨_, frame, _⟩ := latch_reports_drawing create_standard taken
  obtain ⟨again, replied, since_taken⟩ := frame _ framed
  rw [asked] at answered
  cases answered
  cases replied
  exact ⟨create_standard, by decide +kernel, asked, since.mp rfl, framed,
    fun later => nomatch since_taken.mpr later⟩

end Session

end Chip8
