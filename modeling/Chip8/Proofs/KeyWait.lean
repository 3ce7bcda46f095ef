import Chip8.Proofs.Coherence
import Mathlib.Data.List.Induction
import Mathlib.Data.List.Infix

namespace Chip8

namespace Action

def concerns (key : Nibble) : Action → Bool
  | keyDown other | keyUp other => other == key
  | _ => false

/-- Whether the last of the actions that concern a key presses it. -/
def DownLast (key : Nibble) (actions : List Action) : Prop :=
  (actions.filter (concerns key)).getLast? = some (.keyDown key)

instance (key : Nibble) (actions : List Action) : Decidable (DownLast key actions) :=
  inferInstanceAs (Decidable (_ = _))

theorem downLast_nil (key : Nibble) : ¬ DownLast key [] := by
  simp [DownLast]

theorem downLast_append (key : Nibble) (actions : List Action) (a : Action) :
    DownLast key (actions ++ [a]) ↔
      if a.concerns key then a = .keyDown key else DownLast key actions := by
  cases h : a.concerns key <;> simp [DownLast, h]

theorem DownLast.mem {key : Nibble} {actions : List Action} (h : DownLast key actions) :
    .keyDown key ∈ actions :=
  (List.mem_filter.mp (List.mem_of_getLast? h)).1

end Action

open Chip8.Action

namespace Machine

variable {m n : Machine} {w : UInt16}

/-- Whether machines differ at most in their keys and marks. -/
def Alike (m n : Machine) : Prop :=
  ∃ keypad mode redraw beeps, n =
    { m with keypad := keypad, runMode := mode, needsRedraw := redraw, beeps := beeps }

theorem Alike.refl (m : Machine) : m.Alike m :=
  ⟨m.keypad, m.runMode, m.needsRedraw, m.beeps, rfl⟩

theorem Alike.trans {k : Machine} (h : m.Alike n) (h' : n.Alike k) : m.Alike k := by
  obtain ⟨_, _, _, _, rfl⟩ := h
  obtain ⟨keypad, mode, redraw, beeps, rfl⟩ := h'
  exact ⟨keypad, mode, redraw, beeps, rfl⟩

theorem Alike.endStep (m : Machine) : m.Alike m.endStep :=
  ⟨m.keypad, m.endStep.runMode, m.needsRedraw, m.beeps, rfl⟩

theorem Alike.kept (h : m.Alike n) : n.pc = m.pc ∧ n.memory = m.memory ∧
    n.status = m.status ∧ n.keyTarget = m.keyTarget := by
  obtain ⟨_, _, _, _, rfl⟩ := h
  exact ⟨rfl, rfl, rfl, rfl⟩

/-- All actions but cycles and restarts touch only the keys and the marks. -/
theorem alike_act {a : Action} (kept : a.isRestart = false) (still : a ≠ .cycle) :
    m.Alike (m.act a) := by
  cases a with
  | cycle => exact absurd rfl still
  | restart program => cases kept
  | _ => exact ⟨_, _, _, _, rfl⟩

/-- What a machine that waits for a key holds: its next cycle fetches the word that began the
wait, once more. -/
structure Waiting (m : Machine) : Prop where
  status : m.status = .awaitingKey
  inside : m.pc.toNat + 1 < memorySize
  opcode : m.opcode = m.wordOn 0

theorem Waiting.alike (h : m.Waiting) (same : m.Alike n) : n.Waiting := by
  obtain ⟨_, _, _, _, rfl⟩ := same
  exact ⟨h.status, h.inside, h.opcode⟩

theorem Waiting.cycle (h : m.Waiting) (active : m.isActive = true) :
    m.cycle.value = m.pollKeypad.endStep := by
  have named : m.status.name?.isSome = true := by rw [h.status]; rfl
  have again : m.fetchedOn 0 = m := by rw [fetchedOn, ← h.opcode]
  cases turnOn 0 m named with
  | poll _ _ _ result => rw [Machine.cycle, result, again]; rfl
  | rest idle _ => simp [active] at idle
  | lost _ _ outside _ => exact absurd h.inside (Nat.not_lt.mpr outside)
  | fault _ _ running _ _ => simp [h.status] at running
  | complete _ _ running _ _ => simp [h.status] at running

theorem pollKeypad_none (none : m.keypad.lowest? = none) : m.pollKeypad = m := by
  simp only [pollKeypad, none]

theorem pollKeypad_some {key : Nibble} (some : m.keypad.lowest? = some key) :
    m.pollKeypad = { m with
      registers := m.registers.setIfInBounds m.keyTarget.toNat (UInt8.ofNat key)
      status := .running
      pc := m.pc + 2 } := by
  simp only [pollKeypad, some]
  rfl

/-- Actions by which no active cycle found a key down since they began. -/
def Unanswered (m : Machine) (actions : List Action) : Prop :=
  ∀ earlier, earlier ++ [.cycle] <+: actions → (m.actAll earlier).isActive = true →
    ∀ key, ¬ DownLast key earlier

/-- Actions without an active cycle. -/
def Dormant (m : Machine) (actions : List Action) : Prop :=
  ∀ earlier, earlier ++ [.cycle] <+: actions → (m.actAll earlier).isActive = false

theorem cycle_of_idle (idle : m.isActive = false) : m.cycle.value = m.endStep := by
  rw [cycle, cycleOn_rest idle]
  rfl

theorem alike_cycle (still : m.cycle.value = m.endStep) : m.Alike (m.act .cycle) := by
  rw [act, still]
  exact .endStep m

theorem Dormant.alike {actions : List Action} (h : m.Dormant actions)
    (kept : ∀ a ∈ actions, a.isRestart = false) : m.Alike (m.actAll actions) := by
  induction actions using List.reverseRecOn with
  | nil => exact .refl m
  | append_singleton earlier a ih =>
    rw [List.forall_mem_append, List.forall_mem_singleton] at kept
    have same := ih (fun e he => h e (he.trans (List.prefix_append _ _))) kept.1
    rw [actAll_concat]
    by_cases turn : a = .cycle
    · subst turn
      exact same.trans (alike_cycle (cycle_of_idle (h earlier (List.prefix_refl _))))
    · exact same.trans (alike_act kept.2 turn)

theorem act_keypad {a : Action} (kept : a.isRestart = false) (still : a ≠ .cycle) (key : Nibble) :
    (m.act a).keypad.get key = true ↔
      if a.concerns key then a = .keyDown key else m.keypad.get key = true := by
  cases a with
  | cycle => exact absurd rfl still
  | restart program => cases kept
  | keyDown other | keyUp other =>
    simp only [act, keyDown, keyUp, Keypad.get_latch, concerns, beq_iff_eq]
    split <;> simp_all
  | _ => exact Iff.rfl

/-- While it is unanswered, a wait changes only keys and marks, and the latch shows the keys that
were pressed last. -/
theorem Waiting.actAll (h : m.Waiting) (released : m.keypad = .released) {actions : List Action}
    (kept : ∀ a ∈ actions, a.isRestart = false) (unanswered : m.Unanswered actions) :
    m.Alike (m.actAll actions) ∧
      ∀ key, (m.actAll actions).keypad.get key = true ↔ DownLast key actions := by
  -- Both halves go together: that the latch shows the keys pressed last is what tells that the next
  -- cycle finds none of them down.
  induction actions using List.reverseRecOn with
  | nil =>
    refine ⟨.refl m, ?_⟩
    intro key
    change m.keypad.get key = true ↔ _
    rw [released, Keypad.get_released]
    exact iff_of_false Bool.false_ne_true (downLast_nil key)
  | append_singleton earlier a ih =>
    rw [List.forall_mem_append, List.forall_mem_singleton] at kept
    obtain ⟨same, held⟩ := ih kept.1 fun e he => unanswered e (he.trans (List.prefix_append _ _))
    rw [actAll_concat]
    by_cases turn : a = .cycle
    · subst turn
      have still : (m.actAll earlier).cycle.value = (m.actAll earlier).endStep := by
        cases active : (m.actAll earlier).isActive with
        | false => exact cycle_of_idle active
        | true =>
          have none : (m.actAll earlier).keypad.lowest? = none := by
            apply Keypad.lowest?_eq_none.mpr
            intro key down
            exact unanswered earlier (List.prefix_refl _) active key ((held key).mp down)
          rw [(h.alike same).cycle active, pollKeypad_none none]
      refine ⟨same.trans (alike_cycle still), ?_⟩
      intro key
      rw [act, still, downLast_append]
      exact held key
    · refine ⟨same.trans (alike_act kept.2 turn), ?_⟩
      intro key
      rw [downLast_append, ← held key]
      exact act_keypad kept.2 turn key

theorem begins_wait (executes : m.Executes w) (word : w &&& 0xF0FF = 0xF00A) :
    m.cycle.value = ({ m with
      opcode := w
      status := .awaitingKey
      keyTarget := UInt8.ofNat (Word.x w)
      keypad := .released } : Machine).tick.endStep := by
  have shown : Kind.awaitKey.pattern.matchesWord w = true := beq_iff_eq.mpr word
  have met := executes.completes (k := .awaitKey) shown rfl
  rw [met, fetchedOn, executes.word]
  rfl

/-- An active cycle records the word at the program counter, whatever it does then. -/
theorem cycle_opcode (active : m.isActive = true) (named : m.status.name?.isSome = true) :
    m.cycle.value.opcode = m.wordOn 0 := by
  cases turnOn 0 m named with
  | rest idle _ => simp [active] at idle
  | poll _ _ _ result =>
    rw [cycle, result]
    change (m.fetchedOn 0).pollKeypad.opcode = m.wordOn 0
    unfold pollKeypad
    split <;> rfl
  | lost _ _ _ result | fault _ _ _ _ result =>
    rw [cycle, result]
    rfl
  | complete next _ _ met result =>
    rw [cycle, result]
    exact (performOn_kept (attemptOn_inside met).2).2.2.1

theorem Dormant.fetches {actions : List Action} (h : m.Dormant actions)
    (kept : ∀ a ∈ actions, a.isRestart = false) (named : m.status.name?.isSome = true) :
    (m.actAll actions).pc = m.pc ∧ ((m.actAll actions).isActive = true →
      (m.actAll actions).cycle.value.opcode = m.wordOn 0) := by
  obtain ⟨hpc, hmemory, hstatus, _⟩ := (h.alike kept).kept
  refine ⟨hpc, ?_⟩
  intro active
  rw [← hstatus] at named
  rw [cycle_opcode active named, wordOn, wordOn, hpc, hmemory]

/-- The least of the keys that are down ends a wait. -/
theorem Waiting.resumes (h : m.Waiting) (active : m.isActive = true) {pressed : Nibble}
    (down : m.keypad.get pressed = true) :
    ∃ key, m.keypad.get key = true ∧ (∀ other, m.keypad.get other = true → key ≤ other) ∧
      m.cycle.value = ({ m with
        registers := m.registers.setIfInBounds m.keyTarget.toNat (UInt8.ofNat key)
        status := .running
        pc := m.pc + 2 } : Machine).endStep := by
  cases found : m.keypad.lowest? with
  | none => exact absurd down (Keypad.lowest?_eq_none.mp found pressed)
  | some key =>
    obtain ⟨held, least⟩ := Keypad.lowest?_eq_some.mp found
    exact ⟨key, held, least, by rw [h.cycle active, pollKeypad_some found]⟩

/-- A running machine that fetches a word begins to wait for a key. Whatever is done to it then,
short of a restart, nothing but its keys and marks changes while no active cycle finds a key that
was pressed after the wait began and not released again. The first that does puts the least such
key into the register asked for and goes on behind the word, and the next active cycle fetches
there. No wait ends in another way. -/
theorem key_wait (executes : m.Executes w) (word : w &&& 0xF0FF = 0xF00A) {before : List Action}
    (kept : ∀ a ∈ before, a.isRestart = false) :
    let began := m.cycle.value
    let waiting := began.actAll before
    (began.Unanswered before →
      began.Alike waiting ∧ waiting.status = .awaitingKey ∧ waiting.pc = m.pc ∧
      ∀ pressed, DownLast pressed before → waiting.isActive = true →
        ∃ key, DownLast key before ∧ (∀ other, DownLast other before → key ≤ other) ∧
          waiting.cycle.value = { waiting.setRegister (Word.x w) (UInt8.ofNat key) with
            pc := m.pc + 2
            status := .running
            runMode := waiting.endStep.runMode } ∧
          ∀ later, (∀ a ∈ later, a.isRestart = false) → waiting.cycle.value.Dormant later →
            let next := waiting.cycle.value.actAll later
            next.pc = m.pc + 2 ∧ (next.isActive = true →
              next.cycle.value.opcode = m.memory.word 0 (m.pc + 2).toNat)) ∧
    (waiting.status ≠ .awaitingKey → ∃ earlier key, earlier ++ [.cycle] <+: before ∧
      (began.actAll earlier).isActive = true ∧ DownLast key earlier ∧
        .keyDown key ∈ earlier) := by
  intro began waiting
  have begun : began = _ := begins_wait executes word
  have holds : began.Waiting := by
    rw [begun]
    exact ⟨rfl, executes.inside, executes.word.symm⟩
  have origin : began.pc = m.pc ∧ began.memory = m.memory ∧
      began.keyTarget = UInt8.ofNat (Word.x w) ∧ began.keypad = .released := by
    rw [begun]
    exact ⟨rfl, rfl, rfl, rfl⟩
  have waits : began.Unanswered before → began.Alike waiting ∧
      ∀ key, waiting.keypad.get key = true ↔ DownLast key before :=
    holds.actAll origin.2.2.2 kept
  refine ⟨?_, ?_⟩
  · intro unanswered
    obtain ⟨same, held⟩ := waits unanswered
    have still : waiting.Waiting := holds.alike same
    obtain ⟨hpc, hmemory, _, htarget⟩ := same.kept
    have pc : waiting.pc = m.pc := hpc.trans origin.1
    have target : waiting.keyTarget.toNat = (Word.x w).val := by
      rw [htarget, origin.2.2.1]
      exact toNat_ofNat_nibble (Word.x w)
    refine ⟨same, still.status, pc, ?_⟩
    intro pressed down active
    obtain ⟨key, hk, least, result⟩ := still.resumes active ((held pressed).mpr down)
    rw [target, pc] at result
    refine ⟨key, (held key).mp hk, fun other ho => least other ((held other).mpr ho), result, ?_⟩
    intro later kept' dormant
    have running : waiting.cycle.value.status = .running := by rw [result]; rfl
    have there : waiting.cycle.value.pc = m.pc + 2 := by rw [result]; rfl
    have image : waiting.cycle.value.memory = m.memory := by
      rw [result]
      exact hmemory.trans origin.2.1
    have fetched := dormant.fetches kept' (by rw [running]; rfl)
    rw [wordOn, there, image] at fetched
    exact fetched
  · intro resolved
    have answered : ¬ began.Unanswered before := fun h =>
      resolved (holds.alike (waits h).1).status
    simp only [Unanswered, not_forall, not_not] at answered
    obtain ⟨earlier, cut, active, key, down⟩ := answered
    exact ⟨earlier, key, cut, active, down, down.mem⟩

/-- Key 7 is released too early, and of the keys 9 and 4 the lower one counts. -/
theorem key_wait_for_lower_key :
    let m := (boot ⟨0, 0⟩ [0xF3, 0x0A]).value
    let before : List Action :=
      [.keyDown 7, .keyUp 7, .cycle, .keyDown 9, .pause, .keyDown 4, .singleStep]
    let waiting := m.cycle.value.actAll before
    (m.Executes 0xF30A ∧ (0xF30A : UInt16) &&& 0xF0FF = 0xF00A ∧
      (∀ a ∈ before, a.isRestart = false) ∧ m.cycle.value.Unanswered before ∧
      DownLast 4 before ∧ waiting.isActive = true) ∧
    waiting.cycle.value = { waiting.setRegister 3 4 with
      pc := m.pc + 2
      status := .running
      runMode := waiting.endStep.runMode } := by
  intro m before waiting
  have executes : m.Executes 0xF30A := ⟨rfl, rfl, by decide, by decide +kernel⟩
  have kept : ∀ a ∈ before, a.isRestart = false := by decide
  have cuts : ∀ earlier ∈ before.inits, earlier ++ [.cycle] <+: before →
      ∀ key, ¬ DownLast key earlier := by decide +kernel
  have unanswered : m.cycle.value.Unanswered before := by
    intro earlier cut _
    exact cuts earlier ((List.mem_inits _ _).mpr ((List.prefix_append _ _).trans cut)) cut
  have down : DownLast 4 before := by decide
  have active : waiting.isActive = true := by decide +kernel
  obtain ⟨_, _, _, answer⟩ := (key_wait executes (by decide) kept).1 unanswered
  obtain ⟨key, held, least, result, _⟩ := answer 4 down active
  have lowest : ∀ key, DownLast key before → key ≤ 4 → key = 4 := by decide +kernel
  rw [lowest key held (least 4 down)] at result
  exact ⟨⟨executes, by decide, kept, unanswered, down, active⟩, result⟩

end Machine

end Chip8
