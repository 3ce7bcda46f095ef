import Chip8.Proofs.Batches
import Chip8.Proofs.Debugging
import Chip8.Proofs.Frames
import Chip8.Proofs.Loading

namespace Chip8

/-- How many cycles a frame lets through. -/
def RunMode.allowance (pace : Nat) : RunMode → Nat
  | .running => pace
  | .stepPending => 1
  | _ => 0

namespace Machine

/-- A notice goes by what no mark tells. -/
theorem haltOf_hide {before after before' after' : Machine}
    (hb : Veil.marks.hide before = Veil.marks.hide before')
    (ha : Veil.marks.hide after = Veil.marks.hide after') :
    Session.haltOf before after = Session.haltOf before' after' := by
  rw [eq_of_hide hb, eq_of_hide ha]
  rfl

end Machine

namespace Window

open Machine

/-- Whether an event is no key of the keypad and no Backspace. -/
def Input.isPlain : Input → Bool
  | .down .backspace => false
  | .down (.character c) | .up (.character c) => (keyMap.lookup c).isNone
  | _ => true

def Input.closes : Input → Bool
  | .quit | .down .escape => true
  | _ => false

/-- The frames of a script up to the first that asks the window to close. If none does, one more
frame is played that does. -/
def lifetime : List (List Input) → List (List Input)
  | [] => [[.quit]]
  | events :: rest =>
    if events.any Input.closes then [events] else events :: lifetime rest

/-- How many cycles frames let through, by the run mode that each has after its events. -/
def allotted (view : View) (pace : Nat) (w : Window) : List (List Input) → Nat
  | [] => 0
  | events :: rest =>
    (w.inputs events).value.session.machine.runMode.allowance pace +
      (w.frame view events).value.allotted view pace rest

def notice (halt : Halt) : Output :=
  .log ⟨.error, halt.message ++ " - Backspace to reset"⟩

def Output.isNotice : Output → Bool
  | .log entry =>
    entry.level == .error && " - Backspace to reset".toList.isSuffixOf entry.message.toList
  | _ => false

variable {view : View} {w : Window}

theorem togglePause_closing (w : Window) : w.togglePause.value.closing = w.closing := by
  unfold togglePause
  split <;> rfl

theorem press_closing (w : Window) (key : Key) :
    (w.press key).value.closing = (w.closing || (Input.down key).closes) := by
  have kept : w.closing = (w.closing || false) := (Bool.or_false w.closing).symm
  unfold press
  split
  · exact (Bool.or_true w.closing).symm
  · exact kept
  · exact kept
  · exact (togglePause_closing w).trans kept
  · exact kept
  · split <;> exact kept
  · exact kept

theorem input_closing (w : Window) (i : Input) :
    (w.input i).value.closing = (w.closing || i.closes) := by
  have kept : w.closing = (w.closing || false) := (Bool.or_false w.closing).symm
  cases i with
  | quit => exact (Bool.or_true w.closing).symm
  | other => exact kept
  | down key => exact press_closing w key
  | up key =>
    simp only [input, release]
    split
    · split <;> exact kept
    · exact kept

theorem inputs_closing (w : Window) (events : List Input) :
    (w.inputs events).value.closing = (w.closing || events.any Input.closes) := by
  induction events generalizing w with
  | nil => exact (Bool.or_false w.closing).symm
  | cons event rest ih =>
    rw [inputs, Traced.andThen_value, ih, input_closing, List.any_cons, Bool.or_assoc]

/-- A window plays the frames of a script up to the first in which it is asked to close. -/
theorem played_eq_lifetime (unclosed : w.closing = false) (script : List (List Input)) :
    w.played view script = lifetime script := by
  induction script generalizing w with
  | nil => rfl
  | cons events rest ih =>
    have closing : (w.frame view events).value.closing = events.any Input.closes := by
      change (w.inputs events).value.closing = _
      rw [inputs_closing, unclosed, Bool.false_or]
    cases asked : events.any Input.closes with
    | true => simp only [played, lifetime, closing, asked, ↓reduceIte]
    | false =>
      simp only [played, lifetime, closing, asked, Bool.false_eq_true, ↓reduceIte]
      rw [ih (closing.trans asked)]

theorem isNotice_notice (halt : Halt) : (notice halt).isNotice = true := by
  simp [notice, Output.isNotice, List.isSuffixOf_iff_suffix]

theorem not_suffix_address (text : String) (width n : Nat) :
    " - Backspace to reset".toList.isSuffixOf (text ++ Hex.address width n).toList = false := by
  rw [Bool.eq_false_iff, ne_eq, List.isSuffixOf_iff_suffix]
  rintro ⟨start, same⟩
  have filled : (Hex.address width n).toList ≠ [] := by simp [Hex.address]
  have last := congrArg List.getLast? same
  rw [String.toList_append, List.getLast?_append_of_ne_nil _ filled,
    List.getLast?_append_of_ne_nil _ (by decide)] at last
  exact absurd (Hex.digit_of_getLast? last.symm) (by decide)

/-- A session tells of nothing in the words that a window has for a fault. -/
theorem not_isNotice_ofEvent (e : Event) : (Output.ofEvent e).isNotice = false := by
  cases e with
  | report r =>
    cases r with
    | halted fault pc =>
      exact not_suffix_address ("Machine halted: " ++ Fault.name fault ++ " at ") 3 pc.toNat
    | _ => rfl
  | _ => rfl

theorem filter_draws {shown : List Output} (h : ∀ o ∈ shown, o.isText = false) :
    shown.filter Output.isNotice = [] := by
  rw [List.filter_eq_nil_iff]
  intro o ho
  cases o with
  | draw call => nofun
  | _ => cases h _ ho

theorem filter_events (events : List Event) :
    (events.map Output.ofEvent).filter Output.isNotice = [] := by
  rw [List.filter_eq_nil_iff]
  intro o ho
  obtain ⟨e, _, rfl⟩ := List.mem_map.mp ho
  rw [not_isNotice_ofEvent e]
  nofun

/-- A loaded session whose machine is where so many cycles alone lead another one, but for its
marks. -/
structure Tracks (pace : Nat) (m : Machine) (n : Nat) (s : Session) : Prop where
  coherent : s.Coherent
  loaded : s.isLoaded = true
  paced : s.cyclesPerFrame = pace
  machine : Veil.marks.hide s.machine = Veil.marks.hide (m.cycles n).value

variable {pace n : Nat} {m : Machine} {s : Session}

theorem Tracks.setRunMode (t : Tracks pace m n s) {mode : RunMode}
    (named : mode.name?.isSome = true) :
    Tracks pace m n { s with machine := { s.machine with runMode := mode } } :=
  ⟨⟨t.coherent.machine.setRunMode named, t.coherent.silent, t.coherent.idle⟩, t.loaded, t.paced,
    t.machine⟩

theorem Tracks.press (t : Tracks pace m n w.session) {key : Key}
    (plain : (Input.down key).isPlain = true) :
    Tracks pace m n (w.press key).value.session ∧
      (w.press key).trace.filter Output.isNotice = [] := by
  unfold Window.press
  split
  · exact ⟨t, rfl⟩
  · exact ⟨t, rfl⟩
  · cases plain
  · unfold togglePause
    split
    · exact ⟨t.setRunMode rfl, rfl⟩
    · exact ⟨t.setRunMode rfl, rfl⟩
  · exact ⟨t.setRunMode t.coherent.machine.singleStep.runMode_named, rfl⟩
  · rename_i c _ _
    have none : keyMap.lookup c = none := Option.isNone_iff_eq_none.mp plain
    rw [none]
    exact ⟨t, rfl⟩
  · exact ⟨t, rfl⟩

theorem Tracks.input (t : Tracks pace m n w.session) {i : Input} (plain : i.isPlain = true) :
    Tracks pace m n (w.input i).value.session ∧
      (w.input i).trace.filter Output.isNotice = [] := by
  cases i with
  | quit | other => exact ⟨t, rfl⟩
  | down key => exact t.press plain
  | up key =>
    simp only [Window.input, release]
    split
    · rename_i c
      have none : keyMap.lookup c = none := Option.isNone_iff_eq_none.mp plain
      rw [none]
      exact ⟨t, rfl⟩
    · exact ⟨t, rfl⟩

theorem Tracks.inputs (t : Tracks pace m n w.session) {events : List Input}
    (plain : ∀ i ∈ events, i.isPlain = true) :
    Tracks pace m n (w.inputs events).value.session ∧
      (w.inputs events).trace.filter Output.isNotice = [] := by
  induction events generalizing w with
  | nil => exact ⟨t, rfl⟩
  | cons event rest ih =>
    rw [List.forall_mem_cons] at plain
    obtain ⟨tracks, quiet⟩ := t.input plain.1
    obtain ⟨later, silent⟩ := ih tracks plain.2
    refine ⟨later, ?_⟩
    rw [Window.inputs, Traced.andThen_trace, List.filter_append, quiet, silent]
    rfl

/-- A frame runs as many cycles as its run mode lets through. -/
theorem hide_run (h : s.Coherent) (loaded : s.isLoaded = true) :
    ∃ ran reply,
      s.handle (if s.isPaused then .runCycle else .runFrame) = s.commit ran reply ∧
      Veil.marks.hide ran.value = Veil.marks.hide ((Veil.marks.hide s.machine).cycles
        (s.machine.runMode.allowance s.cyclesPerFrame)).value := by
  have named := h.machine.runMode_named
  cases mode : s.machine.runMode with
  | running =>
    have going : s.isPaused = false := by simp [Session.isPaused, mode]
    obtain ⟨ran, reply, result, reached, _⟩ := Session.handle_run (r := .runFrame) loaded rfl
    refine ⟨ran, reply, ?_, ?_⟩
    · rw [going]
      exact result
    · have spared : Veil.marks.Spares s.machine := mode.symm
      rw [reached]
      exact (cycles_hide spared s.cyclesPerFrame).symm
  | unnamed code => simp [mode, RunMode.name?] at named
  | _ =>
    have paused : s.isPaused = true := by simp [Session.isPaused, mode]
    obtain ⟨ran, reply, result, reached, _⟩ := Session.handle_run (r := .runCycle) loaded rfl
    refine ⟨ran, reply, ?_, ?_⟩
    · rw [paused]
      exact result
    · have stepped : Veil.marks.hide s.machine.cycle.value = _ := act_hide (a := .cycle) rfl
      rw [reached, cycles_one]
      simpa [mode, RunMode.allowance] using stepped

theorem Tracks.run (coherent : m.Coherent) (running : m.runMode = .running)
    (t : Tracks pace m n w.session) :
    let a := w.session.machine.runMode.allowance pace
    Tracks pace m (n + a) w.run.value.session ∧
      w.run.trace.filter Output.isNotice = (m.haltings n a).map notice := by
  intro a
  obtain ⟨ran, reply, result, reached⟩ := hide_run t.coherent t.loaded
  have spared : Veil.marks.Spares (m.cycles n).value :=
    Veil.Spares.cycles (v := .marks) running.symm n
  have same : Veil.marks.hide ran.value = Veil.marks.hide (m.cycles (n + a)).value := by
    rw [reached, t.machine, t.paced, cycles_hide spared, cycles_add, Traced.andThen_value]
  have due : (Session.haltOf w.session.machine ran.value).toList = m.haltings n a := by
    rw [haltOf_hide t.machine same, cycles_add, Traced.andThen_value,
      Session.haltOf_cycles (coherent.cycles n), haltings_from]
  refine ⟨⟨t.coherent.handle _, ?_, ?_, ?_⟩, ?_⟩
  · change (w.session.handle _).session.isLoaded = true
    rw [result]
    exact t.loaded
  · change (w.session.handle _).session.cyclesPerFrame = pace
    rw [result]
    exact t.paced
  · change Veil.marks.hide (w.session.handle _).session.machine = _
    rw [result]
    exact same
  · simp only [Window.run, result, List.filter_append, filter_events, List.nil_append, ← due,
      Session.commit]
    cases Session.haltOf w.session.machine ran.value with
    | none => rfl
    | some halt => exact List.filter_cons_of_pos (isNotice_notice halt)

theorem draws_after_run (view : View) (w : Window) :
    ∀ o ∈ (w.repaint view).trace ++ ((w.repaint view).value.present view).trace,
      o.isText = false := by
  intro o ho
  rcases List.mem_append.mp ho with picture | shown
  · rw [List.mem_singleton.mp (List.mem_ite_nil_right.mp picture).2]
    rfl
  · rcases List.mem_append.mp shown with covered | ended
    · obtain ⟨call, _, rfl⟩ := List.mem_map.mp (List.mem_ite_nil_right.mp covered).2
      rfl
    · rcases List.mem_cons.mp ended with rfl | last
      · rfl
      · rw [List.mem_singleton.mp last]
        rfl

/-- A frame without keys of the keypad takes the cycles that it lets through, and tells of the
fault that halts one of them. -/
theorem Tracks.frame (coherent : m.Coherent) (running : m.runMode = .running)
    (t : Tracks pace m n w.session) (view : View) {events : List Input}
    (plain : ∀ i ∈ events, i.isPlain = true) :
    let a := (w.inputs events).value.session.machine.runMode.allowance pace
    Tracks pace m (n + a) (w.frame view events).value.session ∧
      (w.frame view events).trace.filter Output.isNotice = (m.haltings n a).map notice := by
  intro a
  obtain ⟨heard, quiet⟩ := t.inputs plain
  obtain ⟨ran, told⟩ := heard.run coherent running
  refine ⟨⟨ran.coherent.handle .consumeRedraw, ran.loaded, ran.paced, ran.machine⟩, ?_⟩
  let reached := (w.inputs events).value.run.value
  change ((((w.inputs events).trace ++ (w.inputs events).value.run.trace) ++
    (reached.repaint view).trace) ++
      ((reached.repaint view).value.present view).trace).filter Output.isNotice = _
  rw [List.append_assoc, List.filter_append, filter_draws (draws_after_run view reached),
    List.append_nil, List.filter_append, quiet, List.nil_append, told]

theorem Tracks.play (coherent : m.Coherent) (running : m.runMode = .running)
    (t : Tracks pace m n w.session) (view : View) {frames : List (List Input)}
    (plain : ∀ events ∈ frames, ∀ i ∈ events, i.isPlain = true) :
    let k := w.allotted view pace frames
    Tracks pace m (n + k) (w.play view frames).value.session ∧
      (w.play view frames).trace.filter Output.isNotice = (m.haltings n k).map notice := by
  induction frames generalizing w n with
  | nil => exact ⟨t, rfl⟩
  | cons events rest ih =>
    rw [List.forall_mem_cons] at plain
    obtain ⟨first, told⟩ := t.frame coherent running view plain.1
    obtain ⟨later, more⟩ := ih first plain.2
    refine ⟨?_, ?_⟩
    · rw [allotted, ← Nat.add_assoc]
      exact later
    · rw [Window.play, Traced.andThen_trace, List.filter_append, told, more, allotted,
        haltings_add, List.map_append]

/-- A program that is loaded into a session just opened starts from power-on. -/
theorem tracks_load {config : Config} {first : Session} {program : List UInt8}
    (created : Session.create config = .ok first)
    (done : (first.load program).outcome.isOk = true) :
    ∃ key, Random.Key.ofSeed? config.seed = some key ∧
      (first.load program).session.machine = (boot key program).value ∧
      Tracks config.cyclesPerFrame.toNat (boot key program).value 0
        (first.load program).session := by
  have coherent := (Session.coherent_create created).handle (.load program)
  by_cases large : first.strictLoad = true ∧ programCapacity < program.length
  · rw [Session.load_large large] at done
    cases done
  · have fits := (Session.load_fits large).2
    obtain ⟨key, seeded, _, rfl⟩ := Session.create_ok created
    refine ⟨key, seeded, ?_, coherent, ?_, ?_, ?_⟩
    · rw [fits]
      rfl
    · rw [fits]
      rfl
    · rw [fits]
    · rw [fits]
      rfl

theorem lifetime_plain {script : List (List Input)}
    (plain : ∀ events ∈ script, ∀ i ∈ events, i.isPlain = true) :
    ∀ events ∈ lifetime script, ∀ i ∈ events, i.isPlain = true := by
  induction script with
  | nil => simp [lifetime, Input.isPlain]
  | cons events rest ih =>
    rw [List.forall_mem_cons] at plain
    unfold lifetime
    split
    · exact List.forall_mem_singleton.mpr plain.1
    · exact List.forall_mem_cons.mpr ⟨plain.1, ih plain.2⟩

/-- A program in a window computes what it computes without one. As long as no key of the keypad and
no Backspace is pressed, the window plays the frames of its script up to the first that asks it to
close, and these let some number of cycles through: all of a frame where the run mode is running
after the events, one where a single step is pending, and none where it is paused. In the end the
machine is the one that as many cycles lead to when the program is loaded into another session of
the same seed and run in one go, but for the run mode and the redraw latch. And the window tells of
a fault once, if that run fails with it, and otherwise never. -/
theorem window_computes_run {config config' : Config} {first first' : Session}
    {program : List UInt8}
    (created : Session.create config = .ok first) (created' : Session.create config' = .ok first')
    (seeded : config'.seed = config.seed)
    (loaded : (first.load program).outcome.isOk = true)
    (loaded' : (first'.load program).outcome.isOk = true)
    (view : View) {script : List (List Input)}
    (plain : ∀ events ∈ script, ∀ i ∈ events, i.isPlain = true) (progress : Bool) :
    let s := (first.handle (.load program)).session
    let k := (opened s).allotted view config.cyclesPerFrame.toNat (lifetime script)
    let lived := live view s script
    let ran := (first'.handle (.load program)).session.handle (.run k progress)
    (opened s).played view script = lifetime script ∧
    (∃ mode redraw, lived.value.session.machine =
      { ran.session.machine with runMode := mode, needsRedraw := redraw }) ∧
    lived.trace.filter Output.isNotice = ran.halt?.toList.map notice := by
  intro s k lived ran
  obtain ⟨key, seed, begun, tracks⟩ := tracks_load created loaded
  obtain ⟨key', seed', begun', tracks'⟩ := tracks_load created' loaded'
  obtain rfl : key = key' := Option.some.inj (seed.symm.trans (seeded ▸ seed'))
  have coherent : (boot key program).value.Coherent := (coherent_powerOn key).load nofun program
  have playing : Tracks _ _ _ (opened s).session := tracks
  obtain ⟨reached, told⟩ := playing.play coherent rfl view (lifetime_plain plain)
  have played : (opened s).played view script = lifetime script := played_eq_lifetime rfl script
  have lives : (opened s).frames view script = (opened s).play view (lifetime script) := by
    rw [frames_eq_play, played]
  obtain ⟨alone, reply, result, stands, _⟩ :=
    Session.handle_run (r := .run k progress) tracks'.loaded rfl
  have machine : (boot key program).value = (first'.load program).session.machine := begun'.symm
  rw [Nat.zero_add] at reached
  refine ⟨played, ?_, ?_⟩
  · have value : lived.value = ((opened s).frames view script).value := rfl
    have ended : ran.session.machine = ((boot key program).value.cycles k).value.clearBeeps := by
      rw [machine]
      change ((first'.load program).session.handle (.run k progress)).session.machine = _
      rw [result]
      exact congrArg clearBeeps stands
    have agree := eq_of_hide reached.machine
    rw [reached.coherent.silent] at agree
    rw [value, lives, ended]
    exact ⟨_, _, agree⟩
  · have due : ran.halt?.toList = (boot key program).value.haltings 0 k := by
      change ((first'.load program).session.handle (.run k progress)).halt?.toList = _
      rw [result, Session.halt?_commit, stands, ← machine]
      exact Session.haltOf_cycles coherent k
    have trace : lived.trace =
        [(opened s).picture view] ++ (((opened s).frames view script).trace ++ [.draw .stop]) := rfl
    have painted : [(opened s).picture view].filter Output.isNotice = [] := rfl
    have stopped : [Output.draw .stop].filter Output.isNotice = [] := rfl
    rw [due, trace, List.filter_append, List.filter_append, painted, stopped, lives, told,
      List.nil_append, List.append_nil]

/-- A pause, two requests for one step, and on to a return without a call. The frame after the one
that closes the window is not played. -/
theorem window_computes_run_when_stepped :
    let config : Config := ⟨3, 0, false⟩
    let first : Session := { Session.standard with cyclesPerFrame := 3 }
    let program : List UInt8 := [0x6A, 0x42, 0x00, 0xE0, 0x00, 0xEE]
    let s := (first.handle (.load program)).session
    let view : View := ⟨8, some 60, ⟨[0, 255, 0], [0, 0, 0]⟩⟩
    let script : List (List Input) := [[.down (.character 'p')],
      [.down (.character 'n'), .down .tab, .down (.character 'n')],
      [.down (.character 'p'), .up (.character 'p')], [.down .escape, .other], []]
    let ran := (Session.standard.handle (.load program)).session.handle (.run 7 true)
    (Session.create config = .ok first ∧ Session.create .standard = .ok .standard ∧
      (first.load program).outcome.isOk = true ∧
      (Session.standard.load program).outcome.isOk = true ∧
      (∀ events ∈ script, ∀ i ∈ events, i.isPlain = true) ∧
      (opened s).allotted view config.cyclesPerFrame.toNat (lifetime script) = 7) ∧
    (opened s).played view script = script.take 4 ∧
    (∃ mode redraw, (live view s script).value.session.machine =
      { ran.session.machine with runMode := mode, needsRedraw := redraw }) ∧
    (live view s script).trace.filter Output.isNotice =
      [notice ⟨some .stackUnderflow, 0x204, 0x00EE⟩] := by
  intro config first program s view script ran
  have created : Session.create config = .ok first := rfl
  have loaded : (first.load program).outcome.isOk = true := rfl
  have loaded' : (Session.standard.load program).outcome.isOk = true := rfl
  have plain : ∀ events ∈ script, ∀ i ∈ events, i.isPlain = true := by decide
  have counted : (opened s).allotted view config.cyclesPerFrame.toNat (lifetime script) = 7 := by
    decide +kernel
  have told : ran.halt? = some ⟨some .stackUnderflow, 0x204, 0x00EE⟩ := by decide +kernel
  obtain ⟨played, same, notices⟩ :=
    window_computes_run created Session.create_standard rfl loaded loaded' view plain true
  rw [counted] at same notices
  refine ⟨⟨created, Session.create_standard, loaded, loaded', plain, counted⟩, played, same, ?_⟩
  exact notices.trans (congrArg (fun h : Option Halt => h.toList.map notice) told)

end Window

end Chip8
