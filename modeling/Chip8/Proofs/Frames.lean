import Chip8.Window.Loop
import Mathlib.Data.List.Infix

namespace Chip8

namespace Window

/-- Plays frames, whether or not one of them closes the window. -/
def play (view : View) (w : Window) : List (List Input) → Traced Output Window
  | [] => .silent w
  | events :: rest => (w.frame view events).andThen fun next => next.play view rest

/-- The events of the frames that a window plays of a script. -/
def played (view : View) (w : Window) : List (List Input) → List (List Input)
  | [] => [[.quit]]
  | events :: rest =>
    let next := (w.frame view events).value
    events :: if next.closing then [] else next.played view rest

/-- What a frame shows before its flip. -/
def sketch (view : View) (w : Window) (events : List Input) : List Output :=
  let painted := ((w.inputs events).andThen run).andThen (repaint view)
  painted.trace ++ if painted.value.debugging then debugOverlay painted.value.session else []

/-- Whether an output is no call on the window system. -/
def Output.isText : Output → Bool
  | .draw _ => false
  | _ => true

variable {view : View} {w : Window}

theorem frames_eq_play (view : View) (w : Window) (script : List (List Input)) :
    w.frames view script = w.play view (w.played view script) := by
  induction script generalizing w with
  | nil => simp [frames, played, play, Traced.andThen]
  | cons events rest ih =>
    simp only [frames, played, play, Traced.andThen]
    split
    · rfl
    · rw [ih]

theorem play_concat (view : View) (w : Window) (frames : List (List Input)) (events : List Input) :
    w.play view (frames ++ [events]) =
      (w.play view frames).andThen fun next => next.frame view events := by
  induction frames generalizing w with
  | nil => simp [play, Traced.andThen]
  | cons first rest ih => simp only [List.cons_append, play, ih, Traced.andThen_assoc]

def Told (t : Traced Output Window) : Prop :=
  ∀ o ∈ t.trace, o.isText = true

theorem Told.silent (w : Window) : Told (.silent w) :=
  fun _ h => absurd h List.not_mem_nil

theorem told_ask (w : Window) (r : Request) : Told (w.ask r) := by
  intro o ho
  obtain ⟨e, _, rfl⟩ := List.mem_map.mp ho
  cases e <;> rfl

theorem told_press (w : Window) (key : Key) : Told (w.press key) := by
  unfold press
  split
  · exact .silent _
  · exact .silent _
  · exact told_ask _ _
  · unfold togglePause
    split
    all_goals
      intro o ho
      rcases List.mem_append.mp ho with ho | ho
      · exact told_ask _ _ o ho
      · rw [List.mem_singleton.mp ho]
        rfl
  · exact told_ask _ _
  · split
    · exact told_ask _ _
    · exact .silent _
  · exact .silent _

theorem told_input (w : Window) (i : Input) : Told (w.input i) := by
  cases i with
  | down key => exact told_press w key
  | up key =>
    simp only [input, release]
    split
    · split
      · exact told_ask _ _
      · exact .silent _
    · exact .silent _
  | quit | other => exact .silent _

theorem told_inputs (w : Window) (events : List Input) : Told (w.inputs events) := by
  induction events generalizing w with
  | nil => exact .silent w
  | cons event rest ih =>
    intro o ho
    rcases List.mem_append.mp ho with ho | ho
    · exact told_input w event o ho
    · exact ih _ o ho

theorem told_run (w : Window) : Told w.run := by
  intro o ho
  rcases List.mem_append.mp ho with ho | ho
  · obtain ⟨e, _, rfl⟩ := List.mem_map.mp ho
    cases e <;> rfl
  · split at ho
    · rw [List.mem_singleton.mp ho]
      rfl
    · cases ho

theorem frame_trace (view : View) (w : Window) (events : List Input) :
    (w.frame view events).trace =
      w.sketch view events ++ [.draw .flip, .draw (.tick view.fps)] := by
  simp [frame, present, sketch]

theorem mem_textLines {style : Style} {lines : List String} {position : Position} {call : Draw}
    (h : call ∈ textLines style lines position) :
    ∃ line colour place, call = .text line colour place := by
  induction lines generalizing position with
  | nil => cases h
  | cons line rest ih =>
    rcases List.mem_cons.mp h with rfl | h
    · exact ⟨_, _, _, rfl⟩
    · exact ih h

/-- An overlay is a ground with text. -/
theorem mem_overlay {style : Style} {lines : List String} {position : Position} {call : Draw}
    (h : call ∈ overlay style lines position) :
    (∃ width height alpha fill place, call = .overlay width height alpha fill place) ∨
      ∃ line colour place, call = .text line colour place := by
  unfold overlay at h
  split at h
  · cases h
  · rcases List.mem_cons.mp h with rfl | h
    · exact .inl ⟨_, _, _, _, _, rfl⟩
    · exact .inr (mem_textLines h)

theorem mem_debugOverlay {s : Session} {o : Output} (h : o ∈ debugOverlay s) :
    (∃ width height alpha fill place, o = .draw (.overlay width height alpha fill place)) ∨
      ∃ line colour place, o = .draw (.text line colour place) := by
  obtain ⟨call, among, rfl⟩ := List.mem_map.mp h
  rcases mem_overlay among with ⟨_, _, _, _, _, rfl⟩ | ⟨_, _, _, rfl⟩
  · exact .inl ⟨_, _, _, _, _, rfl⟩
  · exact .inr ⟨_, _, _, rfl⟩

theorem flip_not_mem_sketch (view : View) (w : Window) (events : List Input) :
    .draw .flip ∉ w.sketch view events := by
  intro h
  rcases List.mem_append.mp h with painted | covered
  · rcases List.mem_append.mp painted with told | repainted
    · rcases List.mem_append.mp told with heard | ran
      · cases told_inputs w events _ heard
      · cases told_run _ _ ran
    · cases List.mem_singleton.mp (List.mem_ite_nil_right.mp repainted).2
  · rcases mem_debugOverlay (List.mem_ite_nil_right.mp covered).2 with
      ⟨_, _, _, _, _, other⟩ | ⟨_, _, _, other⟩ <;> cases other

/-- Where a mark stands behind a text without it, or further on. -/
theorem prefix_at_mark {α : Type} {mark : α} {body shown rest : List α} (clean : mark ∉ body)
    (h : shown ++ [mark] <+: body ++ mark :: rest) :
    shown = body ∨ ∃ later, shown = body ++ mark :: later ∧ later ++ [mark] <+: rest := by
  induction body generalizing shown with
  | nil =>
    cases shown with
    | nil => exact .inl rfl
    | cons o later =>
      obtain ⟨rfl, further⟩ := List.cons_prefix_cons.mp h
      exact .inr ⟨later, rfl, further⟩
  | cons first body ih =>
    rw [List.mem_cons, not_or] at clean
    cases shown with
    | nil => exact absurd (List.cons_prefix_cons.mp h).1 clean.1
    | cons o later =>
      obtain ⟨rfl, further⟩ := List.cons_prefix_cons.mp h
      rcases ih clean.2 further with rfl | ⟨last, rfl, past⟩
      · exact .inl rfl
      · exact .inr ⟨last, rfl, past⟩

/-- Every flip ends a frame. -/
theorem flip_of_play {shown : List Output} {script : List (List Input)}
    (h : shown ++ [.draw .flip] <+: (w.play view script).trace) :
    ∃ earlier events, earlier ++ [events] <+: script ∧
      shown = (w.play view earlier).trace ++ (w.play view earlier).value.sketch view events := by
  -- The flip is that of the first frame, or one that the window comes to after that frame.
  induction script generalizing w shown with
  | nil => simp [play] at h
  | cons events rest ih =>
    have cut : (w.play view (events :: rest)).trace = w.sketch view events ++ .draw .flip ::
        .draw (.tick view.fps) :: ((w.frame view events).value.play view rest).trace := by
      simp [play, frame_trace]
    rw [cut] at h
    rcases prefix_at_mark (flip_not_mem_sketch view w events) h with rfl | ⟨later, rfl, further⟩
    · exact ⟨[], events, List.prefix_append [events] rest, rfl⟩
    · cases later with
      | nil => cases (List.cons_prefix_cons.mp further).1
      | cons o later =>
        obtain ⟨rfl, past⟩ := List.cons_prefix_cons.mp further
        obtain ⟨earlier, last, among, rfl⟩ := ih past
        refine ⟨events :: earlier, last, List.cons_prefix_cons.mpr ⟨rfl, among⟩, ?_⟩
        simp [play, frame_trace]

end Window

end Chip8
