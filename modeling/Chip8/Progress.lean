import Chip8.Text.Grouped
import Chip8.Traced

namespace Chip8.Progress

inductive Call where
  | opened (total : Nat) (description : String)
  | advanced (steps : Nat)
  | closed
  deriving DecidableEq, Repr

structure Bar where
  total : Nat
  description : String
  rate : Nat
  deriving DecidableEq, Repr

/-- The rate of a run that is not told one: a twentieth of it, at most fifty. -/
def defaultRate (total : Nat) : Nat :=
  max 1 (min (total / 20) 50)

/-- A wanted rate, brought between one and the length of the run. -/
def clampRate (total : Nat) (wanted : Int) : Nat :=
  max 1 (min wanted total).toNat

def defaultDescription (total : Nat) : String :=
  let count := Grouped.ofNat total
  s!"Running ({count} cycles)"

namespace Bar

def ofRun (total : Nat) (rate : Option Int) (description : Option String) : Bar where
  total := total
  description := description.getD (defaultDescription total)
  rate := (rate.map (clampRate total)).getD (defaultRate total)

/-- What the last step advances the bar by. -/
def remainder (b : Bar) : Nat :=
  b.total - b.rate * ((b.total - 2) / b.rate)

/-- An advance comes before the step of its number, for the steps that are done by then. -/
def before (b : Bar) (i : Nat) : List Call :=
  (if i = 0 then [.opened b.total b.description] else []) ++
    (if i % b.rate = 0 ∧ 0 < i ∧ i + 1 ≠ b.total then [.advanced b.rate] else []) ++
    (if i + 1 = b.total then [.advanced b.remainder] else [])

def after (b : Bar) (i : Nat) : List Call :=
  if i + 1 = b.total then [.closed] else []

def step {ε σ : Type} (b : Bar) (body : Nat → σ → Traced ε σ) (i : Nat) (s : σ) :
    Traced (Call ⊕ ε) σ :=
  let done := (body i s).relabel Sum.inr
  ⟨done.value, (b.before i).map Sum.inl ++ done.trace ++ (b.after i).map Sum.inl⟩

def run {ε σ : Type} (b : Bar) (body : Nat → σ → Traced ε σ) (s : σ) : Traced (Call ⊕ ε) σ :=
  Traced.iterate (b.step body) b.total 0 s

end Bar

variable {ε σ : Type}

/-- The calls to a bar in what a run says. -/
def calls (said : List (Call ⊕ ε)) : List Call :=
  said.filterMap Sum.getLeft?

/-- What the steps of a run say for themselves. -/
def words (said : List (Call ⊕ ε)) : List ε :=
  said.filterMap Sum.getRight?

@[simp] theorem calls_append (a b : List (Call ⊕ ε)) : calls (a ++ b) = calls a ++ calls b :=
  List.filterMap_append

@[simp] theorem words_append (a b : List (Call ⊕ ε)) : words (a ++ b) = words a ++ words b :=
  List.filterMap_append

@[simp] theorem calls_inl (cs : List Call) : calls (cs.map (Sum.inl : Call → Call ⊕ ε)) = cs := by
  simp [calls, List.filterMap_map, Function.comp_def]

@[simp] theorem calls_inr (es : List ε) : calls (es.map (Sum.inr : ε → Call ⊕ ε)) = [] := by
  simp [calls]

@[simp] theorem words_inl (cs : List Call) : words (cs.map (Sum.inl : Call → Call ⊕ ε)) = [] := by
  simp [words]

@[simp] theorem words_inr (es : List ε) : words (es.map (Sum.inr : ε → Call ⊕ ε)) = es := by
  simp [words, List.filterMap_map, Function.comp_def]

namespace Bar

theorem calls_step (b : Bar) (body : Nat → σ → Traced ε σ) (i : Nat) (s : σ) :
    calls (b.step body i s).trace = b.before i ++ b.after i := by
  simp [step]

theorem words_step (b : Bar) (body : Nat → σ → Traced ε σ) (i : Nat) (s : σ) :
    words (b.step body i s).trace = (body i s).trace := by
  simp [step]

/-- A bar neither changes where a run leads nor what its steps say. -/
theorem iterate_spec (b : Bar) (body : Nat → σ → Traced ε σ) (n : Nat) (s : σ) :
    (Traced.iterate (b.step body) n 0 s).value = (Traced.iterate body n 0 s).value ∧
      words (Traced.iterate (b.step body) n 0 s).trace = (Traced.iterate body n 0 s).trace := by
  induction n with
  | zero => exact ⟨rfl, rfl⟩
  | succ n ih =>
    obtain ⟨value, trace⟩ := ih
    simp only [Traced.iterate_concat, Traced.andThen_value, Traced.andThen_trace, words_append,
      words_step, value, trace]
    exact ⟨rfl, trivial⟩

end Bar

/-- The options that set a bar's total or its pace. -/
def paceOptions : List String :=
  ["total", "mininterval", "maxinterval", "miniters"]

def looks {α : Type} (options : List (String × α)) : List (String × α) :=
  options.filter fun (name, _) => !paceOptions.contains name

end Chip8.Progress
