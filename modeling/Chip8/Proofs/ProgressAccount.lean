import Chip8.Progress
import Mathlib.Algebra.GroupWithZero.Nat
import Mathlib.Algebra.Order.BigOperators.Group.List
import Mathlib.Algebra.Order.Group.Nat
import Mathlib.Data.List.Basic

namespace Chip8

namespace Progress

variable {ε σ : Type}

def Call.steps : Call → Nat
  | advanced steps => steps
  | _ => 0

/-- How far a bar is after what a run has said. -/
def shown (said : List (Call ⊕ ε)) : Nat :=
  ((calls said).map Call.steps).sum

/-- A body that leaves a mark whenever one of its steps is done. -/
def marked (body : Nat → σ → Traced ε σ) (i : Nat) (s : σ) : Traced (Option ε) σ :=
  let done := body i s
  ⟨done.value, done.trace.map some ++ [none]⟩

/-- How many steps are done after what a run with marks has said. -/
def completed (said : List (Call ⊕ Option ε)) : Nat :=
  (words said).countP Option.isNone

@[simp] theorem shown_append (a b : List (Call ⊕ ε)) : shown (a ++ b) = shown a + shown b := by
  simp [shown]

@[simp] theorem shown_advance (k : Nat) (said : List (Call ⊕ ε)) :
    shown (.inl (.advanced k) :: said) = k + shown said :=
  rfl

@[simp] theorem completed_append (a b : List (Call ⊕ Option ε)) :
    completed (a ++ b) = completed a + completed b := by
  simp [completed]

namespace Bar

variable {b : Bar} {body : Nat → σ → Traced ε σ} {s : σ} {i : Nat}

/-- The calls made in the first steps of a run, the last step left aside. -/
def told (b : Bar) : Nat → List Call
  | 0 => []
  | i + 1 => .opened b.total b.description :: List.replicate (i / b.rate) (.advanced b.rate)

theorem told_succ (inside : i + 1 < b.total) : b.told (i + 1) = b.told i ++ b.before i := by
  have going : i + 1 ≠ b.total := Nat.ne_of_lt inside
  cases i with
  | zero => simp [told, before, going]
  | succ i =>
    by_cases due : b.rate ∣ i + 1
    · have now : (i + 1) % b.rate = 0 := Nat.mod_eq_zero_of_dvd due
      simp [told, before, going, now, Nat.succ_div_of_dvd due, List.replicate_succ']
    · have not : ¬ (i + 1) % b.rate = 0 := fun now => due (Nat.dvd_of_mod_eq_zero now)
      simp [told, before, going, not, Nat.succ_div_of_not_dvd due]

theorem calls_iterate (body : Nat → σ → Traced ε σ) (s : σ) (inside : i < b.total) :
    calls (Traced.iterate (b.step body) i 0 s).trace = b.told i := by
  induction i with
  | zero => rfl
  | succ i ih =>
    have open' : b.after i = [] := if_neg (Nat.ne_of_lt inside)
    rw [Traced.iterate_concat, Traced.andThen_trace, calls_append, calls_step, Nat.zero_add,
      ih (Nat.lt_of_succ_lt inside), open', List.append_nil, told_succ inside]

theorem shown_iterate (body : Nat → σ → Traced ε σ) (s : σ) (inside : i < b.total) :
    shown (Traced.iterate (b.step body) i 0 s).trace = (i - 1) / b.rate * b.rate := by
  rw [shown, calls_iterate body s inside]
  cases i with
  | zero => simp [told]
  | succ i => simp [told, Call.steps]

theorem completed_iterate (b : Bar) (body : Nat → σ → Traced ε σ) (n : Nat) (s : σ) :
    completed (Traced.iterate (b.step (marked body)) n 0 s).trace = n := by
  induction n with
  | zero => rfl
  | succ n ih =>
    rw [Traced.iterate_concat, Traced.andThen_trace, completed_append, ih]
    simp [completed, words_step, marked, List.countP_map, Function.comp_def]

/-- The advance made before a step, if there is one. -/
def due? (b : Bar) (i : Nat) : Option Nat :=
  if i + 1 = b.total then some b.remainder
  else if i % b.rate = 0 ∧ 0 < i then some b.rate
  else none

def opening (b : Bar) (i : Nat) : List Call :=
  if i = 0 then [.opened b.total b.description] else []

theorem before_eq (b : Bar) (i : Nat) :
    b.before i = b.opening i ++ (b.due? i).toList.map .advanced := by
  by_cases last : i + 1 = b.total
  · simp [before, opening, due?, last]
  · by_cases now : i % b.rate = 0 ∧ 0 < i
    · simp [before, opening, due?, last, now]
    · simp [before, opening, due?, last, now]

/-- The only advance in what a step says is the one that is due, right after the opening. -/
theorem advance_in_step {early late : List (Call ⊕ ε)} {k : Nat}
    (cut : (b.step body i s).trace = early ++ .inl (.advanced k) :: late) :
    b.due? i = some k ∧ early = (b.opening i).map .inl := by
  have fresh : .inl (.advanced k) ∉ (b.opening i).map (Sum.inl : Call → Call ⊕ ε) := by
    unfold opening
    split <;> simp
  have finished : .inl (.advanced k) ∉
      (body i s).trace.map (Sum.inr : ε → Call ⊕ ε) ++ (b.after i).map Sum.inl := by
    unfold after
    split <;> simp
  simp only [step, Traced.relabel_trace, before_eq, List.map_append, List.append_assoc] at cut
  cases due : b.due? i with
  | none =>
    have told : .inl (.advanced k) ∈ early ++ .inl (.advanced k) :: late := by simp
    rw [← cut, due, Option.toList_none, List.map_nil, List.map_nil, List.nil_append] at told
    rcases List.mem_append.mp told with here | there
    · exact absurd here fresh
    · exact absurd there finished
  | some m =>
    rw [due, Option.toList_some, List.map_singleton, List.map_singleton, List.singleton_append]
      at cut
    obtain ⟨opened, same, _⟩ := (List.append_cons_inj_of_notMem fresh finished).mp cut
    cases same
    exact ⟨rfl, opened.symm⟩

theorem remainder_add (b : Bar) : (b.total - 2) / b.rate * b.rate + b.remainder = b.total := by
  have covered : b.rate * ((b.total - 2) / b.rate) ≤ b.total - 2 := Nat.mul_div_le _ _
  rw [remainder, Nat.mul_comm]
  omega

theorem remainder_pos (positive : 0 < b.total) : 1 ≤ b.remainder := by
  have covered : (b.total - 2) / b.rate * b.rate ≤ b.total - 2 := Nat.div_mul_le_self _ _
  have all := b.remainder_add
  omega

/-- The advance before a step brings the bar to the steps that are done, or to its total if the
step is the last one. -/
theorem reaches_of_due {k : Nat} (inside : i < b.total) (due : b.due? i = some k) :
    (i - 1) / b.rate * b.rate + k = i ∧ i + 1 < b.total ∨
      (i - 1) / b.rate * b.rate + k = b.total := by
  unfold due? at due
  split at due
  · rename_i last
    cases due
    have before : b.total - 2 = i - 1 := by omega
    exact .inr (before ▸ b.remainder_add)
  · split at due
    · rename_i going now
      cases due
      -- The number of the step is a multiple of the rate, and the one before it is the last that
      -- the bar was advanced to.
      obtain ⟨j, rfl⟩ := Nat.exists_eq_succ_of_ne_zero (Nat.ne_of_gt now.2)
      have multiple : b.rate ∣ j + 1 := Nat.dvd_of_mod_eq_zero now.1
      have one_more : (j + 1) / b.rate = j / b.rate + 1 := Nat.succ_div_of_dvd multiple
      have reached : (j + 1) / b.rate * b.rate = j + 1 := Nat.div_mul_cancel multiple
      rw [one_more, Nat.succ_mul] at reached
      exact .inl ⟨reached, by omega⟩
    · cases due

/-- The advances of a run: the rate again and again, and then what is left. -/
def updates (b : Bar) : List Nat :=
  List.replicate ((b.total - 2) / b.rate) b.rate ++ [b.remainder]

theorem calls_run (body : Nat → σ → Traced ε σ) (s : σ) (positive : 0 < b.total) :
    calls (b.run body s).trace =
      .opened b.total b.description :: (b.updates.map .advanced ++ [.closed]) := by
  obtain ⟨n, all⟩ := Nat.exists_eq_succ_of_ne_zero (Nat.ne_of_gt positive)
  have inside : n < b.total := by omega
  have last : n + 1 = b.total := all.symm
  rw [run, all, Traced.iterate_concat, Traced.andThen_trace, calls_append, calls_step, Nat.zero_add,
    calls_iterate body s inside]
  cases n with
  | zero => simp [told, before, after, updates, all]
  | succ n => simp [told, before, after, updates, all]

theorem sum_updates (b : Bar) : b.updates.sum = b.total := by
  rw [updates, List.sum_append, List.sum_replicate_nat, List.sum_singleton]
  exact b.remainder_add

theorem updates_pos (steady : 0 < b.rate) (positive : 0 < b.total) {k : Nat} (hk : k ∈ b.updates) :
    1 ≤ k := by
  rcases List.mem_append.mp hk with rate | left
  · rw [List.eq_of_mem_replicate rate]
    exact steady
  · rw [List.mem_singleton.mp left]
    exact remainder_pos positive

theorem rate_pos (total : Nat) (rate : Option Int) (description : Option String) :
    0 < (ofRun total rate description).rate := by
  cases rate with
  | none => exact Nat.le_max_left _ _
  | some wanted => exact Nat.le_max_left _ _

/-- A run says nothing before its bar is opened and nothing after it is closed, and in between
there are only advances. -/
theorem run_between (body : Nat → σ → Traced ε σ) (s : σ) (positive : 0 < b.total) :
    ∃ middle, (b.run body s).trace =
        .inl (.opened b.total b.description) :: (middle ++ [.inl .closed]) ∧
      calls middle = b.updates.map .advanced := by
  obtain ⟨n, all⟩ := Nat.exists_eq_succ_of_ne_zero (Nat.ne_of_gt positive)
  have all_calls := calls_run body s positive
  obtain ⟨later, begun⟩ : ∃ later, (b.run body s).trace =
      .inl (.opened b.total b.description) :: later := by
    rw [run, all, Traced.iterate_succ]
    simp [step, before, all]
  obtain ⟨earlier, ended⟩ : ∃ earlier, (b.run body s).trace = earlier ++ [.inl .closed] := by
    have closing : b.after n = [.closed] := if_pos all.symm
    rw [run, all, Traced.iterate_concat]
    simp [step, closing, ← List.append_assoc]
  rw [ended] at begun
  cases earlier with
  | nil => cases begun
  | cons first middle =>
    obtain ⟨rfl, _⟩ := List.cons.inj begun
    refine ⟨middle, ended, ?_⟩
    rw [ended, ← List.singleton_append, calls_append, calls_append] at all_calls
    exact List.append_cancel_right (List.cons.inj all_calls).2

theorem le_shown {said : List (Call ⊕ ε)} {k : Nat} (hk : .inl (.advanced k) ∈ said) :
    k ≤ shown said := by
  apply List.le_sum_of_mem
  exact List.mem_map.mpr ⟨.advanced k, List.mem_filterMap.mpr ⟨_, hk, rfl⟩, rfl⟩

theorem shown_eq_zero {said : List (Call ⊕ ε)} (none : ∀ k, .inl (.advanced k) ∉ said) :
    shown said = 0 := by
  apply List.sum_eq_zero
  intro k hk
  obtain ⟨call, hcall, rfl⟩ := List.mem_map.mp hk
  obtain ⟨e, he, same⟩ := List.mem_filterMap.mp hcall
  cases call with
  | advanced steps =>
    rw [Sum.getLeft?_eq_some_iff.mp same] at he
    exact absurd he (none steps)
  | _ => rfl

theorem shown_run (body : Nat → σ → Traced ε σ) (s : σ) (positive : 0 < b.total) :
    shown (b.run body s).trace = b.total := by
  rw [shown, calls_run body s positive, List.map_cons, List.map_append, List.map_map, List.sum_cons,
    List.sum_append]
  have steps : Call.steps ∘ Call.advanced = id := rfl
  rw [steps, List.map_id, sum_updates]
  simp [Call.steps]

/-- An advance brings the bar to the steps that are done by then, or to its total. -/
theorem shown_at_advance {before after : List (Call ⊕ Option ε)} {k : Nat}
    (cut : (b.run (marked body) s).trace = before ++ .inl (.advanced k) :: after) :
    shown before + k = completed before ∧ shown before + k < b.total ∨
      shown before + k = b.total := by
  obtain ⟨i, early, late, inside, rfl, at_step⟩ := Traced.iterate_split cut
  obtain ⟨due, rfl⟩ := advance_in_step at_step
  have opened : shown ((b.opening i).map (Sum.inl : Call → Call ⊕ Option ε)) = 0 ∧
      completed ((b.opening i).map (Sum.inl : Call → Call ⊕ Option ε)) = 0 := by
    unfold opening
    split <;> exact ⟨rfl, rfl⟩
  rw [shown_append, completed_append, opened.1, opened.2, Nat.add_zero, Nat.add_zero,
    shown_iterate _ s inside, completed_iterate]
  rcases reaches_of_due inside due with ⟨reached, early⟩ | reached
  · exact .inl ⟨reached, by omega⟩
  · exact .inr reached

/-- A bar keeps account of its run, whatever rate is wanted of it. The run leads where it leads
without a bar, and its steps say what they say without one. A run without a step makes no call.
Any other first opens the bar with its number of steps, then only advances it, each time by one
step or more, and in the end closes it and is silent. After each advance but the last, the bar
shows as many steps as are done by then, and after the last it shows all of them. -/
theorem keeps_account (total : Nat) (rate : Option Int) (description : Option String)
    (body : Nat → σ → Traced ε σ) (s : σ) :
    let b := ofRun total rate description
    let ran := b.run body s
    let watched := b.run (marked body) s
    (ran.value = (Traced.iterate body total 0 s).value ∧
      words ran.trace = (Traced.iterate body total 0 s).trace) ∧
    (total = 0 → ran.trace = []) ∧
    (0 < total → ∃ (middle : List (Call ⊕ ε)) (updates : List Nat),
      ran.trace = .inl (.opened total b.description) :: (middle ++ [.inl .closed]) ∧
      calls middle = updates.map .advanced ∧ (∀ k ∈ updates, 1 ≤ k) ∧ updates.sum = total) ∧
    calls watched.trace = calls ran.trace ∧
    ∀ before k after, watched.trace = before ++ .inl (.advanced k) :: after →
      ((∃ j, .inl (.advanced j) ∈ after) →
        shown before + k = completed before ∧ shown before + k < total) ∧
      ((∀ j, .inl (.advanced j) ∉ after) → shown before + k = total) := by
  intro b ran watched
  have steady : 0 < b.rate := rate_pos total rate description
  refine ⟨iterate_spec b body total s, ?_, ?_, ?_, ?_⟩
  · rintro rfl
    rfl
  · intro positive
    obtain ⟨middle, told, updates⟩ := run_between (b := b) body s positive
    have forward : ∀ k ∈ b.updates, 1 ≤ k := fun k hk => updates_pos steady positive hk
    exact ⟨middle, b.updates, told, updates, forward, sum_updates b⟩
  · rcases Nat.eq_zero_or_pos total with rfl | positive
    · rfl
    · have marks := calls_run (b := b) (marked body) s positive
      exact marks.trans (calls_run (b := b) body s positive).symm
  · intro before k after cut
    obtain ⟨_, _, _, inside, _⟩ := Traced.iterate_split cut
    have positive : 0 < total := Nat.zero_lt_of_lt inside
    have all : shown before + (k + shown after) = total := by
      have whole : shown watched.trace = total := shown_run (b := b) (marked body) s positive
      rwa [cut, shown_append, shown_advance] at whole
    refine ⟨fun ⟨j, later⟩ => ?_, fun last => ?_⟩
    · have one : 1 ≤ j := updates_pos (b := b) steady positive ?_
      have left : j ≤ shown after := le_shown later
      rcases shown_at_advance cut with reached | finished
      · exact reached
      · change shown before + k = total at finished
        omega
      · have told : .advanced j ∈ calls watched.trace := by
          have said : .inl (.advanced j) ∈ watched.trace := by simp [cut, later]
          exact List.mem_filterMap.mpr ⟨_, said, rfl⟩
        rw [calls_run (b := b) (marked body) s positive] at told
        simpa using told
    · rw [shown_eq_zero last] at all
      exact all

/-- Seven steps at a rate of three: the last step comes where the rate would have the bar advanced,
and the bar is advanced once there, by all that is left. -/
theorem keeps_account_where_rate_meets_end :
    let body := fun (i : Nat) (s : Nat) => (⟨s + i, [s]⟩ : Traced Nat Nat)
    let watched := (ofRun 7 (some 3) (some "Summing")).run (marked body) 0
    let start : List (Call ⊕ Option Nat) :=
      [.inl (.opened 7 "Summing"), .inr (some 0), .inr none, .inr (some 0), .inr none,
        .inr (some 1), .inr none]
    let middle : List (Call ⊕ Option Nat) :=
      [.inr (some 3), .inr none, .inr (some 6), .inr none, .inr (some 10), .inr none]
    let finish : List (Call ⊕ Option Nat) := [.inr (some 15), .inr none, .inl .closed]
    watched.value = 21 ∧
    watched.trace = start ++ .inl (.advanced 3) :: (middle ++ .inl (.advanced 4) :: finish) ∧
    shown start + 3 = completed start ∧
    shown (start ++ .inl (.advanced 3) :: middle) + 4 = 7 := by
  intro body watched start middle finish
  have account := (keeps_account 7 (some 3) (some "Summing") body 0).2.2.2.2
  have trace : watched.trace =
      start ++ .inl (.advanced 3) :: (middle ++ .inl (.advanced 4) :: finish) := by decide
  refine ⟨rfl, trace, ((account start 3 _ trace).1 ⟨4, by simp⟩).1, ?_⟩
  exact (account (start ++ .inl (.advanced 3) :: middle) 4 finish (by simpa using trace)).2
    (by simp [finish])

end Bar

end Progress

end Chip8
