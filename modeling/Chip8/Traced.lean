namespace Chip8

/-- A value and what was emitted while reaching it, oldest first. -/
structure Traced (ε σ : Type) where
  value : σ
  trace : List ε
  deriving DecidableEq, Repr

namespace Traced

variable {ε φ σ τ υ : Type}

def silent (value : σ) : Traced ε σ :=
  ⟨value, []⟩

def andThen (t : Traced ε σ) (next : σ → Traced ε τ) : Traced ε τ :=
  let rest := next t.value
  ⟨rest.value, t.trace ++ rest.trace⟩

def map (f : σ → τ) (t : Traced ε σ) : Traced ε τ :=
  ⟨f t.value, t.trace⟩

def relabel (f : ε → φ) (t : Traced ε σ) : Traced φ σ :=
  ⟨t.value, t.trace.map f⟩

@[simp] theorem silent_value (s : σ) : (silent s : Traced ε σ).value = s := rfl

@[simp] theorem silent_trace (s : σ) : (silent s : Traced ε σ).trace = [] := rfl

@[simp] theorem andThen_value (t : Traced ε σ) (next : σ → Traced ε τ) :
    (t.andThen next).value = (next t.value).value := rfl

@[simp] theorem andThen_trace (t : Traced ε σ) (next : σ → Traced ε τ) :
    (t.andThen next).trace = t.trace ++ (next t.value).trace := rfl

@[simp] theorem map_value (f : σ → τ) (t : Traced ε σ) : (t.map f).value = f t.value := rfl

@[simp] theorem map_trace (f : σ → τ) (t : Traced ε σ) : (t.map f).trace = t.trace := rfl

@[simp] theorem relabel_value (f : ε → φ) (t : Traced ε σ) :
    (t.relabel f).value = t.value := rfl

@[simp] theorem relabel_trace (f : ε → φ) (t : Traced ε σ) :
    (t.relabel f).trace = t.trace.map f := rfl

@[simp] theorem silent_andThen (s : σ) (next : σ → Traced ε τ) :
    (silent s).andThen next = next s := rfl

theorem andThen_assoc (t : Traced ε σ) (f : σ → Traced ε τ) (g : τ → Traced ε υ) :
    (t.andThen f).andThen g = t.andThen fun s => (f s).andThen g := by
  simp [andThen, List.append_assoc]

/-- The loop behind `iterate`. What was emitted so far is kept newest first, so that a long run
costs one pass. -/
def iterateFrom (step : Nat → σ → Traced ε σ) : Nat → Nat → σ → List ε → Traced ε σ
  | 0, _, s, emitted => ⟨s, emitted.reverse⟩
  | n + 1, i, s, emitted =>
    let t := step i s
    iterateFrom step n (i + 1) t.value (t.trace.reverseAux emitted)

/-- Takes `n` steps, numbered upwards from `first`. -/
def iterate (step : Nat → σ → Traced ε σ) (n first : Nat) (s : σ) : Traced ε σ :=
  iterateFrom step n first s []

theorem iterateFrom_eq (step : Nat → σ → Traced ε σ) (n first : Nat) (s : σ) (emitted : List ε) :
    iterateFrom step n first s emitted =
      ⟨(iterate step n first s).value, emitted.reverse ++ (iterate step n first s).trace⟩ := by
  induction n generalizing first s emitted with
  | zero => simp [iterate, iterateFrom]
  | succ n ih =>
    simp only [iterate, iterateFrom]
    rw [ih, ih _ _ ((step first s).trace.reverseAux [])]
    simp [List.reverseAux_eq, List.append_assoc]

@[simp] theorem iterate_zero (step : Nat → σ → Traced ε σ) (first : Nat) (s : σ) :
    iterate step 0 first s = silent s := rfl

theorem iterate_succ (step : Nat → σ → Traced ε σ) (n first : Nat) (s : σ) :
    iterate step (n + 1) first s = (step first s).andThen (iterate step n (first + 1)) := by
  show iterateFrom step n (first + 1) (step first s).value _ = _
  rw [iterateFrom_eq]
  simp [andThen, List.reverseAux_eq]

/-- A run may be cut anywhere. -/
theorem iterate_add (step : Nat → σ → Traced ε σ) (m n first : Nat) (s : σ) :
    iterate step (m + n) first s =
      (iterate step m first s).andThen (iterate step n (first + m)) := by
  induction m generalizing first s with
  | zero => simp
  | succ m ih =>
    rw [show m + 1 + n = m + n + 1 by omega, iterate_succ, iterate_succ, andThen_assoc]
    have shift : first + 1 + m = first + (m + 1) := by omega
    simp only [andThen, ih, shift]

theorem iterate_concat (step : Nat → σ → Traced ε σ) (n first : Nat) (s : σ) :
    iterate step (n + 1) first s = (iterate step n first s).andThen (step (first + n)) := by
  rw [iterate_add]
  simp [iterate_succ, andThen]

/-- What a run emits is emitted in one of its steps. -/
theorem iterate_split {step : Nat → σ → Traced ε σ} {n : Nat} {s : σ}
    {before after : List ε} {e : ε} (cut : (iterate step n 0 s).trace = before ++ e :: after) :
    ∃ i early late, i < n ∧ before = (iterate step i 0 s).trace ++ early ∧
      (step i (iterate step i 0 s).value).trace = early ++ e :: late := by
  induction n generalizing after with
  | zero => simp at cut
  | succ n ih =>
    rw [iterate_concat, andThen_trace, Nat.zero_add] at cut
    rcases List.append_eq_append_iff.mp cut with ⟨early, rfl, last⟩ | ⟨later, first, rest⟩
    · exact ⟨n, early, after, Nat.lt_succ_self n, rfl, last⟩
    · cases later with
      | nil =>
        rw [List.append_nil] at first
        exact ⟨n, [], after, Nat.lt_succ_self n, by rw [← first, List.append_nil], rest.symm⟩
      | cons d later =>
        obtain ⟨rfl, _⟩ := List.cons.inj rest
        obtain ⟨i, early, late, inside, split⟩ := ih first
        exact ⟨i, early, late, Nat.lt_succ_of_lt inside, split⟩

end Traced

end Chip8
