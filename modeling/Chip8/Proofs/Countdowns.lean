import Chip8.Proofs.Beeps
import Chip8.Proofs.Footprints
import Mathlib.Data.List.Induction
import Mathlib.Data.List.Infix

namespace Chip8

inductive Timer where
  | delay
  | sound
  deriving DecidableEq

def Timer.setter : Timer → Kind
  | delay => .setDelay
  | sound => .setSound

namespace Machine

def timer (m : Machine) : Timer → UInt8
  | .delay => m.delayTimer
  | .sound => m.soundTimer

/-- Whether the word at the program counter sets a timer. -/
def Sets (m : Machine) (t : Timer) : Prop :=
  Word.IsOf [t.setter] (m.wordOn 0)

instance (m : Machine) (t : Timer) : Decidable (m.Sets t) :=
  inferInstanceAs (Decidable (Word.IsOf [t.setter] (m.wordOn 0)))

/-- What a timer shows once the instruction at the program counter has completed. -/
def timerSet (m : Machine) (t : Timer) : UInt8 :=
  if m.Sets t then m.register (Word.x (m.wordOn 0)) else m.timer t

/-- Whether the next cycle executes: it finds the machine running and not paused, and does not
halt it. -/
def completes (m : Machine) : Bool :=
  m.runMode != .paused && m.status == .running && m.cycle.value.status != .halted

/-- How many of the actions are cycles that find a machine of some kind. -/
def tally (kind : Machine → Bool) (m : Machine) : List Action → Nat
  | [] => 0
  | a :: rest => (if a = .cycle ∧ kind m = true then 1 else 0) + (m.act a).tally kind rest

/-- Whether no cycle among the actions executes an instruction that sets a timer. -/
def Unset (m : Machine) (t : Timer) (actions : List Action) : Prop :=
  ∀ earlier, earlier ++ [.cycle] <+: actions → (m.actAll earlier).completes = true →
    ¬ (m.actAll earlier).Sets t

variable {m next : Machine} {t : Timer} {w : UInt16} {actions : List Action}

theorem actAll_append (m : Machine) (earlier later : List Action) :
    m.actAll (earlier ++ later) = (m.actAll earlier).actAll later :=
  List.foldl_append

theorem tally_concat (kind : Machine → Bool) (m : Machine) (earlier : List Action) (a : Action) :
    m.tally kind (earlier ++ [a]) =
      m.tally kind earlier + if a = .cycle ∧ kind (m.actAll earlier) = true then 1 else 0 := by
  induction earlier generalizing m with
  | nil => exact Nat.add_comm _ _
  | cons b rest ih =>
    have later : (m.act b).actAll rest = m.actAll (b :: rest) := rfl
    simp only [List.cons_append, tally, ih, later, Nat.add_assoc]

theorem Unset.earlier {later : List Action} (h : m.Unset t (actions ++ later)) :
    m.Unset t actions :=
  fun earlier cut => h earlier (cut.trans (List.prefix_append _ _))

theorem timer_tick (m : Machine) (t : Timer) :
    (m.tick.timer t).toNat = (m.timer t).toNat - 1 := by
  have countdown : ∀ b : UInt8, (if 0 < b then b - 1 else b).toNat = b.toNat - 1 := by
    intro b
    have := b.toNat_lt
    split
    · rename_i up
      rw [UInt8.lt_iff_toNat_lt, UInt8.toNat_zero] at up
      rw [UInt8.toNat_sub, UInt8.toNat_one]
      omega
    · rename_i out
      rw [UInt8.lt_iff_toNat_lt, UInt8.toNat_zero] at out
      omega
  cases t <;> exact countdown _

theorem performOn_timer (h : m.performOn 0 (.ofWord w) = .ok next) (t : Timer) :
    next.timer t = if Word.IsOf [t.setter] w then m.register (Word.x w) else m.timer t := by
  split
  · rename_i sets
    rw [Instruction.ofWord_of_matches (Word.isOf_singleton.mp sets)] at h
    cases t <;> cases h <;> rfl
  · rename_i other
    have kept := footprint_of_word h
    apply Decidable.byContradiction
    intro changed
    cases t with
    | delay => exact other (kept.delayTimer changed)
    | sound => exact other (kept.soundTimer changed)

theorem cycle_completes (h : m.completes = true) :
    ∃ next, m.executed? = some next ∧ (∀ t, next.timer t = m.timerSet t) ∧
      m.cycle.value = next.tick.endStep := by
  simp only [completes, Bool.and_eq_true, bne_iff_ne, beq_iff_eq] at h
  obtain ⟨⟨unpaused, running⟩, going⟩ := h
  have active : m.isActive = true := by simp [isActive, unpaused, running]
  rcases turn_of_running 0 active running with ⟨f, _, result⟩ | ⟨next, met, result⟩
  · rw [cycle, result] at going
    exact absurd rfl going
  · refine ⟨next, ?_, ?_, by rw [cycle, result]⟩
    · rw [executed?_running active running, met]
      rfl
    · intro t
      rw [performOn_timer (attemptOn_inside met).2 t]
      cases t <;> rfl

theorem cycle_incomplete (named : m.status.name?.isSome = true) (h : m.completes = false) :
    m.executed? = none ∧ ∀ t, m.cycle.value.timer t = m.timer t := by
  cases turnOn 0 m named with
  | rest idle result =>
    refine ⟨executed?_rest idle, ?_⟩
    intro t
    rw [cycle, result]
    cases t <;> rfl
  | poll _ waiting _ result =>
    refine ⟨executed?_waiting waiting, ?_⟩
    intro t
    rw [cycle, result]
    unfold pollKeypad
    split <;> cases t <;> rfl
  | lost _ waiting _ result =>
    refine ⟨executed?_waiting waiting, ?_⟩
    intro t
    rw [cycle, result]
    cases t <;> rfl
  | fault f active running met result =>
    refine ⟨?_, ?_⟩
    · rw [executed?_running active running, met]
      rfl
    · intro t
      rw [cycle, result]
      cases t <;> rfl
  | complete next active running met result =>
    have going : m.cycle.value.status ≠ .halted := by
      rw [cycle, result]
      change next.status ≠ .halted
      rcases attemptOn_status running met with hs | hs <;> simp [hs]
    have unpaused : m.runMode ≠ .paused := by
      intro paused
      simp [isActive, paused] at active
    simp [completes, going, running, unpaused] at h

theorem timer_cycle (named : m.status.name?.isSome = true) (t : Timer) :
    (m.cycle.value.timer t).toNat =
      if m.completes then (m.timerSet t).toNat - 1 else (m.timer t).toNat := by
  cases h : m.completes with
  | true =>
    obtain ⟨next, _, set, result⟩ := cycle_completes h
    have ticked : next.tick.endStep.timer t = next.tick.timer t := by cases t <;> rfl
    rw [result, ticked, timer_tick, set, if_pos rfl]
  | false =>
    rw [(cycle_incomplete named h).2]
    rfl

theorem expires_iff (named : m.status.name?.isSome = true) :
    m.expires = true ↔ m.completes = true ∧ m.timerSet .sound = 1 := by
  cases h : m.completes with
  | true =>
    obtain ⟨next, reached, set, _⟩ := cycle_completes h
    have sound : next.soundTimer = m.timerSet .sound := set .sound
    simp [expires, reached, sound]
  | false => simp [expires, (cycle_incomplete named h).1]

theorem timer_act {a : Action} (kept : a.isRestart = false) (still : a ≠ .cycle) (t : Timer) :
    (m.act a).timer t = m.timer t := by
  cases a with
  | cycle => exact absurd rfl still
  | restart program => cases kept
  | _ => cases t <;> rfl

theorem beeps_act {a : Action} (kept : a.isRestart = false) (still : a ≠ .cycle)
    (uncleared : a ≠ .clearBeeps) : (m.act a).beeps = m.beeps := by
  cases a with
  | cycle => exact absurd rfl still
  | clearBeeps => exact absurd rfl uncleared
  | restart program => cases kept
  | _ => rfl

theorem timer_actAll (hr : Reachable m) (kept : ∀ a ∈ actions, a.isRestart = false)
    (unset : m.Unset t actions) :
    ((m.actAll actions).timer t).toNat = (m.timer t).toNat - m.tally completes actions := by
  -- The last action is a cycle, which takes one step of the law, or it leaves the timer alone.
  induction actions using List.reverseRecOn with
  | nil => rfl
  | append_singleton earlier a ih =>
    rw [List.forall_mem_append, List.forall_mem_singleton] at kept
    have before := ih kept.1 unset.earlier
    rw [actAll_concat, tally_concat]
    by_cases turn : a = .cycle
    · subst turn
      rw [act, timer_cycle (hr.actAll earlier).orderly.named]
      cases done : (m.actAll earlier).completes with
      | true =>
        have left : (m.actAll earlier).timerSet t = (m.actAll earlier).timer t :=
          if_neg (unset earlier (List.prefix_refl _) done)
        simp only [left, before, and_self, ↓reduceIte]
        omega
      | false => simpa using before
    · rw [timer_act kept.2 turn, before]
      simp [turn]

theorem beeps_actAll (hr : Reachable m) (kept : ∀ a ∈ actions, a.isRestart = false)
    (uncleared : .clearBeeps ∉ actions) :
    (m.actAll actions).beeps.toNat = min 255 (m.beeps.toNat + m.tally expires actions) := by
  induction actions using List.reverseRecOn with
  | nil =>
    have := m.beeps.toNat_lt
    simp only [actAll, List.foldl_nil, tally]
    omega
  | append_singleton earlier a ih =>
    rw [List.forall_mem_append, List.forall_mem_singleton] at kept
    rw [List.mem_append, List.mem_singleton, not_or] at uncleared
    have before := ih kept.1 uncleared.1
    rw [actAll_concat, tally_concat]
    by_cases turn : a = .cycle
    · subst turn
      rw [act, beeps_cycle (hr.actAll earlier).orderly.named, before]
      simp only [true_and]
      omega
    · rw [beeps_act kept.2 turn (Ne.symm uncleared.2), before]
      simp [turn]

/-- A sound timer that is not set runs out at most once, in the cycle that its start counts. -/
theorem tally_expires (hr : Reachable m) (kept : ∀ a ∈ actions, a.isRestart = false)
    (unset : m.Unset .sound actions) :
    m.tally expires actions =
      if 1 ≤ m.soundTimer.toNat ∧ m.soundTimer.toNat ≤ m.tally completes actions then 1 else 0 := by
  induction actions using List.reverseRecOn with
  | nil =>
    have never : ¬ (1 ≤ m.soundTimer.toNat ∧ m.soundTimer.toNat ≤ 0) := by omega
    exact (if_neg never).symm
  | append_singleton earlier a ih =>
    rw [List.forall_mem_append, List.forall_mem_singleton] at kept
    have before := ih kept.1 unset.earlier
    rw [tally_concat, tally_concat, before]
    by_cases turn : a = .cycle
    · subst turn
      have last := timer_actAll hr kept.1 unset.earlier
      have runs_out := expires_iff (hr.actAll earlier).orderly.named
      cases done : (m.actAll earlier).completes with
      | true =>
        have left : (m.actAll earlier).timerSet .sound = (m.actAll earlier).timer .sound :=
          if_neg (unset earlier (List.prefix_refl _) done)
        have start : m.timer .sound = m.soundTimer := rfl
        rw [left, ← UInt8.toNat_inj, last, start] at runs_out
        simp only [runs_out, done, true_and, UInt8.toNat_one, ↓reduceIte]
        split <;> split <;> split <;> omega
      | false =>
        have quiet : (m.actAll earlier).expires = false := by simpa [done] using runs_out
        simp [quiet]
    · simp [turn]

/-- The beeps of a run that sets no sound timer. -/
theorem beeps_of_unset (hr : Reachable m) (kept : ∀ a ∈ actions, a.isRestart = false)
    (uncleared : .clearBeeps ∉ actions) (unset : m.Unset .sound actions) :
    (m.actAll actions).beeps.toNat = min 255 (m.beeps.toNat +
      if 1 ≤ m.soundTimer.toNat ∧ m.soundTimer.toNat ≤ m.tally completes actions
      then 1 else 0) := by
  rw [← tally_expires hr kept unset]
  exact beeps_actAll hr kept uncleared

/-- A cycle that loads a timer leaves it one behind what was loaded, and a run goes on from
there. -/
theorem timer_of_loaded (hr : Reachable m) (kept : ∀ a ∈ actions, a.isRestart = false)
    (done : m.completes = true) (sets : m.Sets t) (unset : m.cycle.value.Unset t actions) :
    ((m.cycle.value.actAll actions).timer t).toNat =
      (m.register (Word.x (m.wordOn 0))).toNat - (1 + m.cycle.value.tally completes actions) := by
  have step := timer_cycle hr.orderly.named t
  have loaded : m.timerSet t = m.register (Word.x (m.wordOn 0)) := if_pos sets
  have run := timer_actAll (hr.act .cycle) kept unset
  rw [done, if_pos rfl, loaded] at step
  rw [act, step] at run
  omega

theorem beeps_of_loaded (hr : Reachable m) (kept : ∀ a ∈ actions, a.isRestart = false)
    (uncleared : .clearBeeps ∉ actions) (done : m.completes = true) (sets : m.Sets .sound)
    (unset : m.cycle.value.Unset .sound actions) :
    let start := (m.register (Word.x (m.wordOn 0))).toNat
    (m.cycle.value.actAll actions).beeps.toNat = min 255 (m.beeps.toNat +
      if 1 ≤ start ∧ start ≤ 1 + m.cycle.value.tally completes actions then 1 else 0) := by
  intro start
  have named := hr.orderly.named
  have loaded : (m.timerSet .sound).toNat = start := congrArg UInt8.toNat (if_pos sets)
  have timer : m.cycle.value.soundTimer.toNat = start - 1 := by
    have step := timer_cycle named .sound
    rw [done, if_pos rfl, loaded] at step
    exact step
  have here : m.expires = true ↔ start = 1 := by
    rw [expires_iff named, done, ← UInt8.toNat_inj, loaded]
    simp
  have run := beeps_of_unset (hr.act .cycle) kept uncleared unset
  rw [act, beeps_cycle named, timer] at run
  simp only [run, here]
  split <;> split <;> split <;> omega

theorem cycle_keeps_counts (named : m.status.name?.isSome = true) (h : m.completes = false) :
    (∀ t, m.cycle.value.timer t = m.timer t) ∧ m.cycle.value.beeps = m.beeps := by
  obtain ⟨nothing, timers⟩ := cycle_incomplete named h
  refine ⟨timers, ?_⟩
  have quiet : m.expires = false := by rw [expires, nothing]; rfl
  have counted := beeps_cycle named
  have := m.beeps.toNat_lt
  rw [quiet] at counted
  apply UInt8.toNat_inj.mp
  simp only [Bool.false_eq_true, ↓reduceIte] at counted
  omega

/-- Whatever is done to a machine short of a restart and of acknowledging beeps: a timer that no
completed cycle sets ends at its start less the completed cycles, and one that is set ends so from
what was loaded, the cycle that loads it counted. The beeps count the completed cycles that find
the sound timer at one after their instruction, up to 255, and for a sound timer that is not set
this is one if it can run out. Cycles that are paused, halted, waiting or that halt the machine
change neither. -/
theorem timers_count_completed_cycles (hr : Reachable m)
    (kept : ∀ a ∈ actions, a.isRestart = false) (uncleared : .clearBeeps ∉ actions) :
    let last := m.actAll actions
    (∀ t, m.Unset t actions →
      (last.timer t).toNat = (m.timer t).toNat - m.tally completes actions) ∧
    (m.Unset .sound actions →
      last.beeps.toNat = min 255 (m.beeps.toNat +
        if 1 ≤ m.soundTimer.toNat ∧ m.soundTimer.toNat ≤ m.tally completes actions
        then 1 else 0)) ∧
    (∀ earlier later, actions = earlier ++ .cycle :: later →
      let n := m.actAll earlier
      let start := (n.register (Word.x (n.wordOn 0))).toNat
      let elapsed := 1 + n.cycle.value.tally completes later
      ∀ t, n.completes = true → n.Sets t → n.cycle.value.Unset t later →
        (last.timer t).toNat = start - elapsed ∧
        (t = .sound → last.beeps.toNat =
          min 255 (n.beeps.toNat + if 1 ≤ start ∧ start ≤ elapsed then 1 else 0))) ∧
    last.beeps.toNat = min 255 (m.beeps.toNat + m.tally expires actions) ∧
    (m.runMode = .paused ∨ m.status = .awaitingKey ∨ m.status = .halted ∨
      m.cycle.value.status = .halted →
      (∀ t, m.cycle.value.timer t = m.timer t) ∧ m.cycle.value.beeps = m.beeps) := by
  intro last
  refine ⟨fun t unset => timer_actAll hr kept unset, beeps_of_unset hr kept uncleared, ?_,
    beeps_actAll hr kept uncleared, ?_⟩
  · intro earlier later cut n start elapsed t done sets unset
    have reached : Reachable n := hr.actAll earlier
    have whole : last = n.cycle.value.actAll later := by
      change m.actAll actions = _
      rw [cut, actAll_append]
      rfl
    have kept' : ∀ a ∈ later, a.isRestart = false := fun a ha =>
      kept a (cut ▸ List.mem_append_right _ (List.mem_cons_of_mem _ ha))
    have uncleared' : .clearBeeps ∉ later := fun ha =>
      uncleared (cut ▸ List.mem_append_right _ (List.mem_cons_of_mem _ ha))
    rw [whole]
    refine ⟨timer_of_loaded reached kept' done sets unset, ?_⟩
    rintro rfl
    exact beeps_of_loaded reached kept' uncleared' done sets unset
  · intro idle
    apply cycle_keeps_counts hr.orderly.named
    rcases idle with h | h | h | h <;> simp [completes, h]

/-- The sound timer stands at two. A cycle that finds the machine paused and two that poll the keys
do not count, and the second of three that complete loads the other timer. -/
theorem timers_count_completed_cycles_past_key_wait :
    let m := (boot ⟨0, 0⟩
      [0x60, 0x03, 0xF0, 0x18, 0xF3, 0x0A, 0xF0, 0x15, 0x12, 0x08]).value.actAll [.cycle, .cycle]
    let earlier : List Action :=
      [.pause, .cycle, .singleStep, .cycle, .resume, .cycle, .keyDown 5, .cycle]
    let actions := earlier ++ [.cycle, .cycle]
    let n := m.actAll earlier
    let last := m.actAll actions
    (Reachable m ∧ (∀ a ∈ actions, a.isRestart = false) ∧ .clearBeeps ∉ actions ∧
      m.Unset .sound actions ∧ n.completes = true ∧ n.Sets .delay ∧
      n.cycle.value.Unset .delay [.cycle] ∧ n.pause.runMode = .paused) ∧
    last.soundTimer.toNat = 2 - 3 ∧ last.beeps.toNat = min 255 (0 + 1) ∧
    last.delayTimer.toNat = 3 - (1 + 1) ∧ n.pause.cycle.value.soundTimer = n.pause.soundTimer := by
  intro m earlier actions n last
  have reached : Reachable m := Reachable.actAll (.load _ (.powerOn _)) _
  have kept : ∀ a ∈ actions, a.isRestart = false := by decide
  have uncleared : .clearBeeps ∉ actions := by decide
  obtain ⟨cuts, cuts', done, sets, three, one, two, silent, loaded⟩ :
      (∀ cut ∈ actions.inits, cut ++ [.cycle] <+: actions →
        (m.actAll cut).completes = true → ¬ (m.actAll cut).Sets .sound) ∧
      (∀ cut ∈ [.cycle].inits, cut ++ [.cycle] <+: [.cycle] →
        (n.cycle.value.actAll cut).completes = true →
          ¬ (n.cycle.value.actAll cut).Sets .delay) ∧
      n.completes = true ∧ n.Sets .delay ∧ m.tally completes actions = 3 ∧
      (m.actAll earlier).cycle.value.tally completes [.cycle] = 1 ∧ m.soundTimer.toNat = 2 ∧
      m.beeps.toNat = 0 ∧
      ((m.actAll earlier).register (Word.x ((m.actAll earlier).wordOn 0))).toNat = 3 := by
    decide +kernel
  have unset : m.Unset .sound actions := fun cut before =>
    cuts cut ((List.mem_inits _ _).mpr ((List.prefix_append _ _).trans before)) before
  have unset' : n.cycle.value.Unset .delay [.cycle] := fun cut before =>
    cuts' cut ((List.mem_inits _ _).mpr ((List.prefix_append _ _).trans before)) before
  have paused : Reachable n.pause := (reached.actAll earlier).act .pause
  obtain ⟨ends, beeps, loads, _⟩ := timers_count_completed_cycles reached kept uncleared
  obtain ⟨_, _, _, _, rests⟩ :=
    timers_count_completed_cycles paused (List.forall_mem_nil _) List.not_mem_nil
  have sound := ends .sound unset
  have beeped := beeps unset
  obtain ⟨delay, _⟩ := loads earlier [.cycle] rfl .delay done sets unset'
  have rested := (rests (.inl rfl)).1 .sound
  simp only [timer] at sound delay rested
  rw [two, three] at sound
  rw [two, silent, three] at beeped
  rw [loaded, one] at delay
  exact ⟨⟨reached, kept, uncleared, unset, done, sets, unset', rfl⟩, sound, beeped, delay,
    rested⟩

end Machine

end Chip8
