import Chip8.Proofs.Histories

namespace Chip8

namespace Machine

/-- The notice due for the next cycle, if the machine halts in it: the fault it halts with, the
address of the instruction, and the word there. -/
def halting? (m : Machine) : Option Halt :=
  if m.status ≠ .halted ∧ m.cycle.value.status = .halted then
    some ⟨m.cycle.value.fault, m.pc.toNat, (m.wordOn 0).toNat⟩
  else none

/-- The notices due for so many cycles, counted from the one of a number. -/
def haltings (m : Machine) (first n : Nat) : List Halt :=
  (List.range n).filterMap fun k => (m.cycles (first + k)).value.halting?

variable {m : Machine}

theorem haltings_add (m : Machine) (first a b : Nat) :
    m.haltings first (a + b) = m.haltings first a ++ m.haltings (first + a) b := by
  simp only [haltings, List.range_add, List.filterMap_append, List.filterMap_map,
    Function.comp_def, Nat.add_assoc]

theorem haltings_from (m : Machine) (a n : Nat) :
    (m.cycles a).value.haltings 0 n = m.haltings a n := by
  have same : ∀ k, ((m.cycles a).value.cycles (0 + k)).value = (m.cycles (a + k)).value := by
    intro k
    rw [Nat.zero_add, cycles_add, Traced.andThen_value]
  simp only [haltings, same]

theorem haltings_one (m : Machine) (first : Nat) :
    m.haltings first 1 = (m.cycles first).value.halting?.toList := by
  cases h : (m.cycles first).value.halting? <;> simp [haltings, h]

/-- A halted machine does not halt again. -/
theorem halting?_of_halted (h : m.status = .halted) : m.halting? = none :=
  if_neg fun turn => turn.1 h

/-- A cycle that halts leaves the address and the word of its instruction behind. -/
theorem cycle_halts (named : m.status.name?.isSome = true) (going : m.status ≠ .halted)
    (halts : m.cycle.value.status = .halted) :
    m.cycle.value.pc = m.pc ∧ m.cycle.value.opcode = m.wordOn 0 := by
  cases turnOn 0 m named with
  | rest _ result =>
    rw [cycle, result] at halts
    exact absurd halts going
  | poll _ waiting _ result =>
    rw [cycle, result] at halts
    change (m.fetchedOn 0).pollKeypad.status = .halted at halts
    unfold pollKeypad at halts
    split at halts
    · cases halts
    · exact absurd halts going
  | lost _ _ _ result =>
    rw [cycle, result]
    exact ⟨rfl, rfl⟩
  | fault f _ _ _ result =>
    rw [cycle, result]
    exact ⟨rfl, rfl⟩
  | complete next _ running met result =>
    rw [cycle, result] at halts
    change next.status = .halted at halts
    rcases attemptOn_status running met with hn | hn <;> simp [halts] at hn

end Machine

namespace Session

open Machine

variable {m : Machine} {s : Session} {r : Request}

/-- The notice due between two coherent machines goes by their statuses. -/
theorem haltOf_eq {before after : Machine} (hb : before.Coherent) (ha : after.Coherent) :
    haltOf before after =
      if before.status ≠ .halted ∧ after.status = .halted then
        some ⟨after.fault, after.pc.toNat, after.opcode.toNat⟩
      else none := by
  have hf : before.fault.isNone = true ↔ before.status ≠ .halted := by
    rw [ne_eq, hb.halted_iff, Option.isNone_iff_eq_none, Classical.not_not]
  have hs : after.fault.isSome = true ↔ after.status = .halted := by
    rw [ha.halted_iff, Option.isSome_iff_ne_none]
  simp only [haltOf, Bool.and_eq_true, hf, hs]

/-- No notice is due for a machine that was halted before. -/
theorem haltOf_of_halted {before after : Machine} (h : before.Coherent)
    (halted : before.status = .halted) : haltOf before after = none := by
  cases held : before.fault with
  | none => exact absurd held (h.halted_iff.mp halted)
  | some f => simp [haltOf, held]

theorem haltOf_cycle (h : m.Coherent) : haltOf m m.cycle.value = m.halting? := by
  rw [haltOf_eq h h.cycle]
  unfold halting?
  split
  · rename_i turn
    obtain ⟨hpc, hw⟩ := cycle_halts h.status_named turn.1 turn.2
    rw [hpc, hw]
  · rfl

/-- One more cycle of a run adds the notice due for it, unless one was due before. -/
theorem haltOf_succ (h : m.Coherent) (n : Nat) :
    haltOf m (m.cycles (n + 1)).value =
      (haltOf m (m.cycles n).value).or (m.cycles n).value.halting? := by
  have hn := h.cycles n
  rw [cycles_add, Traced.andThen_value, cycles_one]
  by_cases halted : (m.cycles n).value.status = .halted
  · rw [halting?_of_halted halted, Option.or_none, cycle_of_halted halted]
    rfl
  · have going : m.status ≠ .halted := by
      intro hm
      exact halted (cycles_halted_mono (Nat.zero_le n) hm)
    have none : haltOf m (m.cycles n).value = none := by
      rw [haltOf_eq h hn]
      exact if_neg fun turn => halted turn.2
    rw [none, Option.none_or, ← haltOf_cycle hn]
    unfold haltOf
    rw [h.no_fault going, hn.no_fault halted]

/-- The notice due after a run is the one due for the cycle of it that halts. -/
theorem haltOf_cycles (h : m.Coherent) (n : Nat) :
    (haltOf m (m.cycles n).value).toList = m.haltings 0 n := by
  -- Cycles are added at the end of the run: its first machine is the one compared with.
  induction n with
  | zero =>
    rw [cycles_zero, Traced.silent_value, haltOf_eq h h, if_neg fun turn => turn.1 turn.2]
    rfl
  | succ n ih =>
    rw [haltings_add, haltings_one, Nat.zero_add, ← ih, haltOf_succ h]
    cases told : haltOf m (m.cycles n).value with
    | none => rfl
    | some halt =>
      have halted : (m.cycles n).value.status = .halted := by
        rw [haltOf_eq h (h.cycles n)] at told
        split at told
        · rename_i turn
          exact turn.2
        · cases told
      rw [halting?_of_halted halted]
      rfl

/-- Whether requests neither reset the machine nor load a program. -/
def Undisturbed (s : Session) : List Request → Prop
  | [] => True
  | r :: rest => r.restarts s = false ∧ (s.handle r).session.Undisturbed rest

/-- A request fails with a halt if it is a run of cycles in which the machine halts. -/
theorem Coherent.told_iff (h : s.Coherent) (r : Request) :
    (∃ halt, (s.handle r).halt? = some halt) ↔
      (r.cycles? s).isSome = true ∧ s.machine.status ≠ .halted ∧
        (s.handle r).session.machine.status = .halted := by
  cases s.course r with
  | run n ran reply _ asked reached _ result =>
    have after : (s.handle r).session.machine.status = (s.machine.cycles n).value.status := by
      rw [result, ← reached]
      rfl
    rw [after, result, halt?_commit, reached, haltOf_eq h.machine (h.machine.cycles n), asked]
    split
    · rename_i turn
      exact iff_of_true ⟨_, rfl⟩ ⟨rfl, turn⟩
    · rename_i still
      exact iff_of_false (by simp) fun turn => still turn.2
  | restart _ _ brief _ _ told =>
    rw [told, brief]
    exact iff_of_false (by simp) fun turn => Bool.false_ne_true turn.1
  | touch mode keypad redraw _ result told =>
    rw [told, result]
    exact iff_of_false (by simp) fun turn => turn.2.1 turn.2.2

/-- What is told of a halt: the fault the machine is left with, and where it halted. -/
theorem Coherent.told_of (h : s.Coherent) {halt : Halt} (told : (s.handle r).halt? = some halt) :
    halt.fault = (s.handle r).session.machine.fault ∧
      ∃ n k, r.cycles? s = some n ∧ k < n ∧
        (s.machine.cycles k).value.halting? = some halt := by
  cases s.course r with
  | run n ran reply _ asked reached _ result =>
    rw [result, halt?_commit, reached] at told
    have due := haltOf_cycles h.machine n
    rw [told] at due
    have among : halt ∈ s.machine.haltings 0 n := by
      rw [← due]
      exact List.mem_singleton.mpr rfl
    obtain ⟨k, hk, he⟩ := List.mem_filterMap.mp among
    rw [Nat.zero_add] at he
    obtain ⟨_, f, hf, rfl⟩ := haltOf_some told
    refine ⟨?_, n, k, asked, List.mem_range.mp hk, he⟩
    rw [result, ← hf, ← reached]
    rfl
  | restart _ _ _ _ _ quiet => simp [quiet] at told
  | touch _ _ _ _ _ quiet => simp [quiet] at told

theorem clearBeeps_of_silent (h : m.beeps = 0) : m.clearBeeps = m := by
  cases m
  cases h
  rfl

/-- A halted session keeps all but its run mode, its keys and its redraw latch. -/
theorem Coherent.handle_halted (h : s.Coherent) (halted : s.machine.status = .halted)
    (kept : r.restarts s = false) :
    ∃ mode keypad redraw, (s.handle r).session = { s with machine :=
      { s.machine with runMode := mode, keypad := keypad, needsRedraw := redraw } } := by
  cases s.course r with
  | run n ran reply _ _ reached _ result =>
    obtain ⟨mode, he⟩ := cycles_of_halted halted n
    refine ⟨mode, s.machine.keypad, s.machine.needsRedraw, ?_⟩
    have silent : ({ s.machine with runMode := mode } : Machine).beeps = 0 := h.silent
    have hm : ran.value.clearBeeps = { s.machine with runMode := mode } := by
      rw [reached, he]
      exact clearBeeps_of_silent silent
    rw [result, commit, hm]
  | restart _ asked _ _ _ _ => simp [kept] at asked
  | touch mode keypad redraw _ result _ => exact ⟨mode, keypad, redraw, result⟩

theorem Coherent.after_halted (h : s.Coherent) (halted : s.machine.status = .halted)
    {later : List Request} (kept : s.Undisturbed later) :
    ∃ mode keypad redraw, s.after later = { s with machine :=
      { s.machine with runMode := mode, keypad := keypad, needsRedraw := redraw } } := by
  induction later generalizing s with
  | nil => exact ⟨s.machine.runMode, s.machine.keypad, s.machine.needsRedraw, rfl⟩
  | cons r rest ih =>
    obtain ⟨mode, keypad, redraw, he⟩ := h.handle_halted halted kept.1
    have still : (s.handle r).session.machine.status = .halted := by
      rw [he]
      exact halted
    obtain ⟨mode', keypad', redraw', he'⟩ := ih (h.handle r) still kept.2
    refine ⟨mode', keypad', redraw', he'.trans ?_⟩
    rw [he]

/-- A halted session answers a run of cycles in silence, but for the progress bar. -/
theorem Coherent.run_halted (h : s.Coherent) (halted : s.machine.status = .halted)
    (asked : (r.cycles? s).isSome = true) :
    (∃ reply, (s.handle r).outcome = .ok reply) ∧
      ∀ e ∈ (s.handle r).events, ∃ call, e = .bar call := by
  obtain ⟨n, asked⟩ := Option.isSome_iff_exists.mp asked
  cases loaded : s.isLoaded with
  | false =>
    obtain ⟨reply, result⟩ := handle_run_idle loaded asked
    rw [result]
    exact ⟨⟨reply, rfl⟩, fun e he => absurd he List.not_mem_nil⟩
  | true =>
    obtain ⟨ran, reply, result, reached, said⟩ := handle_run loaded asked
    obtain ⟨mode, he⟩ := cycles_of_halted halted n
    rw [he] at reached said
    refine ⟨⟨reply, ?_⟩, ?_⟩
    · rw [result]
      simp only [commit, haltOf_of_halted h.machine halted]
    · intro e hm
      have silent : ran.value.beeps.toNat = 0 := by
        rw [reached]
        exact congrArg UInt8.toNat h.silent
      rw [result, commit] at hm
      simp only [silent, List.replicate_zero, List.append_nil] at hm
      rcases said e hm with ⟨report, hr, _⟩ | told
      · cases hr
      · exact told

/-- Whatever was asked of a session before, a request fails with a halt exactly if it is a run of
cycles in which the machine halts. The notice has a fault that machines halt with by themselves,
and the address and the word of the instruction whose cycle halted. From then on, until a reset or
a load that succeeds, runs of cycles are answered in silence, and only the run mode, the keys and
the redraw latch change. -/
theorem halts_once {config : Config} {opened : Session} (created : create config = .ok opened)
    (earlier : List Request) :
    let s := opened.after earlier
    (∀ r : Request, (∃ halt, (s.handle r).halt? = some halt) ↔
      (r.cycles? s).isSome = true ∧ s.machine.status ≠ .halted ∧
        (s.handle r).session.machine.status = .halted) ∧
    (∀ r halt, (s.handle r).halt? = some halt →
      halt.isRaised = true ∧ halt.fault = (s.handle r).session.machine.fault ∧
        ∃ n k, r.cycles? s = some n ∧ k < n ∧
          (s.machine.cycles k).value.halting? = some halt) ∧
    (s.machine.status = .halted → ∀ later, s.Undisturbed later →
      (∃ mode keypad redraw, s.after later = { s with machine :=
        { s.machine with runMode := mode, keypad := keypad, needsRedraw := redraw } }) ∧
      ∀ r : Request, (r.cycles? (s.after later)).isSome = true →
        (∃ reply, ((s.after later).handle r).outcome = .ok reply) ∧
          ∀ e ∈ ((s.after later).handle r).events, ∃ call, e = .bar call) := by
  intro s
  have h : s.Coherent := (coherent_create created).after earlier
  refine ⟨fun r => h.told_iff r, ?_, ?_⟩
  · intro r halt told
    exact ⟨h.halt_raised told, h.told_of told⟩
  · intro halted later kept
    obtain ⟨mode, keypad, redraw, frozen⟩ := h.after_halted halted kept
    refine ⟨⟨mode, keypad, redraw, frozen⟩, ?_⟩
    intro r asked
    have still : (s.after later).machine.status = .halted := by
      rw [frozen]
      exact halted
    exact (h.after later).run_halted still asked

theorem halts_once_at_bare_return :
    let s := standard.after [.load [0x00, 0xEE], .run 5 false]
    (create .standard = .ok standard ∧ s.machine.status = .halted ∧
      s.Undisturbed [.resume, .singleStep, .keyDown 3]) ∧
    ∀ e ∈ ((s.after [.resume, .singleStep, .keyDown 3]).handle (.run 7 true)).events,
      ∃ call, e = .bar call := by
  intro s
  have halted : s.machine.status = .halted := by decide +kernel
  have kept : s.Undisturbed [.resume, .singleStep, .keyDown 3] := ⟨rfl, rfl, rfl, trivial⟩
  have still := (halts_once create_standard [.load [0x00, 0xEE], .run 5 false]).2.2
  exact ⟨⟨create_standard, halted, kept⟩, ((still halted _ kept).2 (.run 7 true) rfl).2⟩

end Session

end Chip8
