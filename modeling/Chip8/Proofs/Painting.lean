import Chip8.Proofs.Frames
import Chip8.Proofs.Redraws

namespace Chip8

namespace Window

/-- What a user was shown last: the display, and whether the log has told of a reset since. -/
structure Sight where
  painted : Option Display
  reset : Bool

namespace Sight

def nothing : Sight :=
  ⟨none, false⟩

def next (v : Sight) : Output → Sight
  | .draw (.screen display _ _) => ⟨some display, false⟩
  | .log entry => if entry = Event.resetEntry then { v with reset := true } else v
  | _ => v

def after (v : Sight) (shown : List Output) : Sight :=
  shown.foldl next v

/-- The display to expect of the machine: the painted one, or a blank one after a reset. -/
def expected (v : Sight) : Option Display :=
  if v.reset then some .blank else v.painted

theorem after_append (v : Sight) (shown more : List Output) :
    v.after (shown ++ more) = (v.after shown).after more :=
  List.foldl_append

/-- What a sight has to do with the session that the window runs: unless a painting is due, the
display is as expected. -/
structure Follows (v : Sight) (s : Session) : Prop where
  coherent : s.Coherent
  display : ∃ display, v.expected = some display ∧ s.Expects display

end Sight

/-- Whether an output neither paints the display nor tells of a reset. -/
def Output.Quiet (o : Output) : Prop :=
  ∀ v : Sight, v.next o = v

variable {view : View} {w : Window} {v : Sight} {s : Session} {shown : List Output}

theorem Sight.after_quiet (h : ∀ o ∈ shown, o.Quiet) (v : Sight) : v.after shown = v := by
  induction shown with
  | nil => rfl
  | cons o rest ih =>
    rw [List.forall_mem_cons] at h
    change (v.next o).after rest = v
    rw [h.1, ih h.2]

theorem quiet_log {entry : Log.Entry} (h : entry ≠ Event.resetEntry) : (Output.log entry).Quiet :=
  fun _ => if_neg h

theorem quiet_report (r : Report) : (Output.ofEvent (.report r)).Quiet := by
  apply quiet_log
  intro same
  have level := congrArg Log.Entry.level same
  unfold Report.entry at level
  split at level <;> cases level

theorem quiet_run {r : Request} {n : Nat} (asked : r.cycles? s = some n) {e : Event}
    (h : e ∈ (s.handle r).events) : (Output.ofEvent e).Quiet := by
  cases loaded : s.isLoaded with
  | true =>
    obtain ⟨ran, reply, result, _, tells⟩ := Session.handle_run loaded asked
    rw [result] at h
    rcases List.mem_append.mp h with told | beeped
    · rcases tells e told with ⟨report, _, rfl⟩ | ⟨call, rfl⟩
      · exact quiet_report report
      · exact fun _ => rfl
    · rw [List.eq_of_mem_replicate beeped]
      exact quiet_log (by decide)
  | false =>
    obtain ⟨reply, result⟩ := Session.handle_run_idle loaded asked
    rw [result] at h
    cases h

/-- Whether a sight that follows the session of a window follows it on. -/
def Keeps (w : Window) (t : Traced Output Window) : Prop :=
  ∀ v : Sight, v.Follows w.session → (v.after t.trace).Follows t.value.session

theorem Keeps.silent {next : Window} (same : next.session = w.session) :
    Keeps w (.silent next) := by
  intro v h
  rw [Traced.silent_value, same]
  exact h

theorem Keeps.andThen {t : Traced Output Window} {next : Window → Traced Output Window}
    (h : Keeps w t) (h' : Keeps t.value (next t.value)) : Keeps w (t.andThen next) := by
  intro v follows
  rw [Traced.andThen_trace, Sight.after_append]
  exact h' _ (h v follows)

theorem Keeps.log {t : Traced Output Window} (h : Keeps w t) {entry : Log.Entry}
    (other : entry ≠ Event.resetEntry) : Keeps w ⟨t.value, t.trace ++ [.log entry]⟩ := by
  intro v follows
  have quiet : ∀ o ∈ [Output.log entry], o.Quiet := by
    intro o ho
    rw [List.mem_singleton.mp ho]
    exact quiet_log other
  simp only [Sight.after_append, Sight.after_quiet quiet]
  exact h v follows

theorem keeps_ask {r : Request} (kept : r.restarts w.session = false) (other : r ≠ .consumeRedraw)
    (quiet : ∀ e ∈ (w.session.handle r).events, (Output.ofEvent e).Quiet) : Keeps w (w.ask r) := by
  intro v follows
  have same : v.after (w.ask r).trace = v := by
    apply Sight.after_quiet
    intro o ho
    obtain ⟨e, he, rfl⟩ := List.mem_map.mp ho
    exact quiet e he
  obtain ⟨display, expected, expects⟩ := follows.display
  rw [same]
  exact ⟨follows.coherent.handle r, display, expected,
    expects.redrawn (follows.coherent.handle_redrawn kept other)⟩

/-- A reset blanks the display, and tells so. -/
theorem keeps_reset (w : Window) : Keeps w (w.ask (.reset true)) := by
  intro v follows
  obtain ⟨reports, told⟩ : ∃ reports,
      (w.session.handle (.reset true)).events = reports ++ [Event.reset] := ⟨_, rfl⟩
  have blank : (w.session.handle (.reset true)).session.machine.display = .blank := by
    simp only [Session.handle, Session.reset, ↓reduceIte]
    cases w.session.program <;> rfl
  have expected : (v.after (w.ask (.reset true)).trace).expected = some .blank := by
    change (v.after ((w.session.handle (.reset true)).events.map .ofEvent)).expected = _
    rw [told, List.map_append, Sight.after_append]
    rfl
  exact ⟨follows.coherent.handle (.reset true), .blank, expected, fun _ => blank⟩

theorem keeps_silent {r : Request} (kept : r.restarts w.session = false)
    (other : r ≠ .consumeRedraw) (silent : (w.session.handle r).events = []) :
    Keeps w (w.ask r) := by
  apply keeps_ask kept other
  intro e he
  rw [silent] at he
  exact absurd he List.not_mem_nil

theorem latch_events (s : Session) (number : Int) (f : Machine → Nibble → Machine) :
    (s.latch number f).events = [] := by
  unfold Session.latch
  split <;> rfl

theorem keeps_press (w : Window) (key : Key) : Keeps w (w.press key) := by
  unfold press
  split
  · exact .silent rfl
  · exact .silent rfl
  · exact keeps_reset w
  · unfold togglePause
    split
    · have resumed : Keeps w (w.ask .resume) := keeps_silent rfl (by simp) rfl
      exact resumed.log (by decide)
    · have paused : Keeps w (w.ask .pause) := keeps_silent rfl (by simp) rfl
      exact paused.log (by decide)
  · exact keeps_silent rfl (by simp) rfl
  · split
    · exact keeps_silent rfl (by simp) (latch_events _ _ _)
    · exact .silent rfl
  · exact .silent rfl

theorem keeps_input (w : Window) (i : Input) : Keeps w (w.input i) := by
  cases i with
  | down key => exact keeps_press w key
  | up key =>
    simp only [input, release]
    split
    · split
      · exact keeps_silent rfl (by simp) (latch_events _ _ _)
      · exact .silent rfl
    · exact .silent rfl
  | quit | other => exact .silent rfl

theorem keeps_inputs (w : Window) (events : List Input) : Keeps w (w.inputs events) := by
  induction events generalizing w with
  | nil => exact .silent rfl
  | cons event rest ih => exact (keeps_input w event).andThen (ih _)

theorem keeps_run (w : Window) : Keeps w w.run := by
  obtain ⟨r, n, chosen, asked⟩ : ∃ r n,
      (if w.session.isPaused then Request.runCycle else .runFrame) = r ∧
        r.cycles? w.session = some n := by
    split
    · exact ⟨_, _, rfl, rfl⟩
    · exact ⟨_, _, rfl, rfl⟩
  have ran : Keeps w (w.ask r) := by
    apply keeps_ask
    · cases r <;> first | rfl | cases asked
    · rintro rfl
      cases asked
    · intro e he
      exact quiet_run asked he
  simp only [run, chosen]
  cases (w.session.handle r).outcome with
  | ok reply =>
    rw [List.append_nil]
    exact ran
  | error failure =>
    apply ran.log
    intro same
    cases congrArg Log.Entry.level same

theorem quiet_debugOverlay {o : Output} (h : o ∈ debugOverlay s) : o.Quiet := by
  rcases mem_debugOverlay h with ⟨_, _, _, _, _, rfl⟩ | ⟨_, _, _, rfl⟩
  · exact fun _ => rfl
  · exact fun _ => rfl

/-- The flip of a frame shows the display that the machine has then, or a reset left the picture of
before in view. -/
theorem sketch_follows (h : v.Follows w.session) (view : View) (events : List Input) :
    let next := (w.frame view events).value
    (v.after (w.sketch view events)).expected = some next.session.machine.display ∧
      next.session.Coherent := by
  let ran := (w.inputs events).andThen run
  have follows := (keeps_inputs w events).andThen (keeps_run _) v h
  refine ⟨?_, follows.coherent.handle .consumeRedraw⟩
  have covered : ∀ v : Sight, v.after (if ran.value.debugging then
      debugOverlay (ran.value.session.handle .consumeRedraw).session else []) = v := by
    intro v
    apply Sight.after_quiet
    intro o ho
    exact quiet_debugOverlay (List.mem_ite_nil_right.mp ho).2
  let m := ran.value.session.machine
  change (v.after ((ran.trace ++ if m.needsRedraw || ran.value.debugging then
    [.draw (.screen m.display view.scale view.palette)] else []) ++
      if ran.value.debugging then debugOverlay (ran.value.session.handle .consumeRedraw).session
        else [])).expected = some m.display
  rw [Sight.after_append, covered, Sight.after_append]
  split
  · rfl
  · rename_i unpainted
    rw [Bool.or_eq_true, not_or, Bool.not_eq_true] at unpainted
    obtain ⟨display, expected, expects⟩ := follows.display
    exact expected.trans (congrArg some (expects unpainted.1).symm)

theorem quiet_flip : ∀ o ∈ [Output.draw .flip, .draw (.tick view.fps)], o.Quiet := by
  intro o ho
  rcases List.mem_cons.mp ho with rfl | ho
  · exact fun _ => rfl
  · rw [List.mem_singleton.mp ho]
    exact fun _ => rfl

theorem frame_follows (h : v.Follows w.session) (view : View) (events : List Input) :
    (v.after (w.frame view events).trace).Follows (w.frame view events).value.session := by
  obtain ⟨expected, coherent⟩ := sketch_follows h view events
  rw [frame_trace, Sight.after_append, Sight.after_quiet quiet_flip]
  exact ⟨coherent, _, expected, fun _ => rfl⟩

theorem play_follows (h : v.Follows w.session) (view : View) (frames : List (List Input)) :
    (v.after (w.play view frames).trace).Follows (w.play view frames).value.session := by
  induction frames generalizing w v with
  | nil => exact h
  | cons events rest ih =>
    rw [play, Traced.andThen_trace, Sight.after_append]
    exact ih (frame_follows h view events)

/-- Where a life of a window flips, it has played some frames of its script in whole, and the
display that was painted last is that of the machine, unless a reset blanked it since. -/
theorem live_flip (coherent : s.Coherent) {script : List (List Input)}
    (flips : shown ++ [.draw .flip] <+: (live view s script).trace) :
    ∃ frames, frames <+: (opened s).played view script ∧
      let done := (opened s).play view frames
      shown ++ [.draw .flip, .draw (.tick view.fps)] = (opened s).picture view :: done.trace ∧
      (Sight.nothing.after shown).expected = some done.value.session.machine.display := by
  have lived : (live view s script).trace = (opened s).picture view ::
      ((opened s).play view ((opened s).played view script)).trace ++ [.draw .stop] := by
    simp only [live, Traced.andThen_trace, frames_eq_play, List.singleton_append]
  rw [lived, List.prefix_concat_iff] at flips
  rcases flips with ends | inside
  · cases (List.append_inj' ends rfl).2
  · cases shown with
    | nil => cases (List.cons_prefix_cons.mp inside).1
    | cons first shown =>
      obtain ⟨rfl, past⟩ := List.cons_prefix_cons.mp inside
      obtain ⟨earlier, events, among, rfl⟩ := flip_of_play past
      have begun : (Sight.nothing.next ((opened s).picture view)).Follows (opened s).session :=
        ⟨coherent, _, rfl, fun _ => rfl⟩
      have shows := (sketch_follows (play_follows begun view earlier) view events).1
      refine ⟨earlier ++ [events], among, ?_⟩
      rw [play_concat]
      refine ⟨by simp [frame_trace], ?_⟩
      rw [← Sight.after_append] at shows
      exact shows

/-- A host that is told that nothing is to be drawn has seen the display as it is, or the machine
was started over since something was, and the display is blank. At every flip of a window, which
ends one of its frames, the display painted last is that of the machine, or the log has told of a
reset since, and the display of the machine is blank. -/
theorem display_seen_or_blank {config : Config} {first : Session}
    (created : Session.create config = .ok first) (earlier : List Request) :
    let s := first.after earlier
    ((s.handle .consumeRedraw).outcome = .ok (.redraw false) →
      s.machine.display =
        if first.startedOver false earlier then .blank else first.lastDrawn .blank earlier) ∧
    ∀ view script shown, shown ++ [.draw .flip] <+: (live view s script).trace →
      ∃ frames, frames <+: (opened s).played view script ∧
        let done := (opened s).play view frames
        let display := done.value.session.machine.display
        let sight := Sight.nothing.after shown
        shown ++ [.draw .flip, .draw (.tick view.fps)] = (opened s).picture view :: done.trace ∧
        (sight.reset = true → display = .blank) ∧
        (sight.reset = false → sight.painted = some display) := by
  intro s
  have coherent := Session.coherent_create created
  refine ⟨?_, ?_⟩
  · intro unneeded
    have begun : first.Expects (if false then .blank else .blank) := by
      unfold Session.create at created
      split at created
      · cases created
      · split at created <;> cases created
        exact fun _ => rfl
    apply begun.after coherent (Session.settled_create created) earlier
    have answer : (s.handle .consumeRedraw).outcome = .ok (.redraw s.machine.needsRedraw) := rfl
    rw [answer, Except.ok.injEq, Reply.redraw.injEq] at unneeded
    exact unneeded
  · intro view script shown flips
    obtain ⟨frames, among, whole, follows⟩ := live_flip (coherent.after earlier) flips
    refine ⟨frames, among, whole, ?_, ?_⟩
    · intro reset
      rw [Sight.expected, if_pos reset] at follows
      exact (Option.some.inj follows).symm
    · intro still
      rw [Sight.expected, if_neg (Bool.eq_false_iff.mp still)] at follows
      exact follows

def slowSession : Session :=
  { Session.standard with cyclesPerFrame := 1 }

theorem create_slow : Session.create ⟨1, 0, false⟩ = .ok slowSession := rfl

/-- A program that draws the glyph of a zero in its second cycle, and no more. -/
def zeroProgram : List UInt8 :=
  [0x60, 0x00, 0xD0, 0x05, 0x12, 0x04]

def usualView : View :=
  ⟨8, some 60, ⟨[0, 255, 0], [0, 0, 0]⟩⟩

/-- What is shown up to the flip of a frame in which the program is reset, right after the frame
in which it has drawn. -/
def shownAtReset : List Output :=
  let w := live usualView (slowSession.after [.load zeroProgram]) [[], [], [.down .backspace]]
  w.trace.take 7

theorem unneeded_at_reset :
    let earlier : List Request := [.load zeroProgram, .run 2 false, .consumeRedraw, .reset true]
    ((slowSession.after earlier).handle .consumeRedraw).outcome = .ok (.redraw false) ∧
      slowSession.startedOver false earlier = true ∧
      (slowSession.after earlier).machine.display ≠ slowSession.lastDrawn .blank earlier := by
  decide +kernel

theorem flips_at_reset :
    let script : List (List Input) := [[], [], [.down .backspace]]
    let w := opened (slowSession.after [.load zeroProgram])
    let done := w.play usualView script
    shownAtReset ++ [.draw .flip] <+: (live usualView w.session script).trace ∧
      (Sight.nothing.after shownAtReset).reset = true ∧
      shownAtReset ++ [.draw .flip, .draw (.tick usualView.fps)] =
        w.picture usualView :: done.trace ∧
      (Sight.nothing.after shownAtReset).painted ≠ some done.value.session.machine.display := by
  decide +kernel

/-- A reset blanks a display that was drawn, and nobody is told. -/
theorem display_seen_or_blank_at_reset :
    let earlier : List Request := [.load zeroProgram, .run 2 false, .consumeRedraw, .reset true]
    let script : List (List Input) := [[], [], [.down .backspace]]
    let w := opened (slowSession.after [.load zeroProgram])
    (Session.create ⟨1, 0, false⟩ = .ok slowSession ∧
      ((slowSession.after earlier).handle .consumeRedraw).outcome = .ok (.redraw false) ∧
      shownAtReset ++ [.draw .flip] <+: (live usualView w.session script).trace) ∧
    (slowSession.after earlier).machine.display = .blank ∧
    ∃ frames, frames <+: w.played usualView script ∧
      (w.play usualView frames).value.session.machine.display = .blank := by
  intro earlier script w
  obtain ⟨unneeded, started, _⟩ := unneeded_at_reset
  obtain ⟨flips, reset, _⟩ := flips_at_reset
  have blank := (display_seen_or_blank create_slow earlier).1 unneeded
  obtain ⟨frames, among, _, shows, _⟩ :=
    (display_seen_or_blank create_slow [.load zeroProgram]).2 usualView script shownAtReset flips
  rw [if_pos started] at blank
  exact ⟨⟨create_slow, unneeded, flips⟩, blank, frames, among, shows reset⟩

/-- The picture that was painted before a reset stays in view at the next flip, and a host that
waits to be told does not see the display go blank. -/
theorem reset_leaves_old_picture :
    let earlier : List Request := [.load zeroProgram, .run 2 false, .consumeRedraw, .reset true]
    let script : List (List Input) := [[], [], [.down .backspace]]
    let w := opened (slowSession.after [.load zeroProgram])
    let done := w.play usualView script
    (((slowSession.after earlier).handle .consumeRedraw).outcome = .ok (.redraw false) ∧
      (slowSession.after earlier).machine.display ≠ slowSession.lastDrawn .blank earlier) ∧
    shownAtReset ++ [.draw .flip] <+: (live usualView w.session script).trace ∧
    shownAtReset ++ [.draw .flip, .draw (.tick usualView.fps)] =
      w.picture usualView :: done.trace ∧
    (Sight.nothing.after shownAtReset).painted ≠ some done.value.session.machine.display := by
  obtain ⟨unneeded, _, missed⟩ := unneeded_at_reset
  obtain ⟨flips, _, whole, stale⟩ := flips_at_reset
  exact ⟨⟨unneeded, missed⟩, flips, whole, stale⟩

end Window

end Chip8
