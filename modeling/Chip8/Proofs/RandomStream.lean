import Chip8.Proofs.Footprints
import Chip8.Proofs.Histories
import Mathlib.Data.List.Iterate

namespace Chip8

/-- A run whose steps commute with a change of the state does so too. -/
theorem Traced.iterate_map {ε σ : Type} {step : Nat → σ → Traced ε σ} {f : σ → σ} {first : Nat}
    {s : σ} {n : Nat}
    (along : ∀ k, k < n → step (first + k) (f (iterate step k first s).value) =
      (step (first + k) (iterate step k first s).value).map f) :
    iterate step n first (f s) = (iterate step n first s).map f := by
  induction n with
  | zero => rfl
  | succ n ih =>
    have before := ih fun k hk => along k (Nat.lt_succ_of_lt hk)
    have last := along n (Nat.lt_succ_self n)
    rw [iterate_concat step n, iterate_concat step n, before]
    simp only [andThen, map] at last ⊢
    rw [last]

namespace Machine

def reseed (key : Random.Key) (m : Machine) : Machine :=
  { m with random := key }

/-- Whether the next cycle rolls a random byte. -/
def Rolls (m : Machine) : Prop :=
  m.Executes (m.wordOn 0) ∧ m.wordOn 0 &&& 0xF000 = 0xC000

instance (m : Machine) : Decidable m.Rolls :=
  inferInstanceAs (Decidable (_ ∧ _))

variable {bus : UInt8} {m : Machine} {key : Random.Key}

/-- Only a roll looks at the key. -/
theorem performOn_reseed {i : Instruction} (other : ∀ x byte, i ≠ .random x byte) :
    (m.reseed key).performOn bus i = (m.performOn bus i).map (reseed key) := by
  cases i with
  | random x byte => exact absurd rfl (other x byte)
  | arithmetic op x y => cases op <;> rfl
  | _ =>
    simp only [performOn]
    first
    | rfl
    | (rw [apply_ite (Except.map _)]
       rfl)

theorem executeOn_reseed {w : UInt16} (other : ∀ x byte, Instruction.ofWord w ≠ .random x byte) :
    (m.reseed key).executeOn bus w = (m.executeOn bus w).map (reseed key) := by
  let recorded : Machine := { m with opcode := w }
  have same : (recorded.reseed key).performOn bus (.ofWord w) =
      (recorded.performOn bus (.ofWord w)).map (reseed key) := performOn_reseed other
  change (recorded.reseed key).settle _ ((recorded.reseed key).performOn bus _) =
    (recorded.settle _ (recorded.performOn bus _)).map (reseed key)
  rw [same]
  cases recorded.performOn bus (.ofWord w) <;> rfl

/-- A word that decodes to a roll shows its pattern. -/
theorem random_word {w : UInt16} {x : Nibble} {byte : UInt8}
    (h : Instruction.ofWord w = .random x byte) : w &&& 0xF000 = 0xC000 := by
  rcases Instruction.ofWord_cases w with ⟨k, hk, he⟩ | hu
  · rw [h] at he
    cases k <;> cases he
    exact beq_iff_eq.mp hk
  · rw [h] at hu
    cases hu

theorem proceedOn_reseed (other : m.status = .running →
    ∀ x byte, Instruction.ofWord m.opcode ≠ .random x byte) (named : m.status.name?.isSome = true) :
    (m.reseed key).proceedOn bus = (m.proceedOn bus).map (reseed key) := by
  unfold proceedOn
  rw [show (m.reseed key).status = m.status from rfl]
  cases status : m.status with
  | running =>
    change ((m.reseed key).executeOn bus m.opcode).map tickUnlessHalted =
      ((m.executeOn bus m.opcode).map tickUnlessHalted).map (reseed key)
    rw [executeOn_reseed (other status)]
    simp only [Traced.map, tickUnlessHalted, apply_ite (reseed key)]
    rfl
  | awaitingKey =>
    change (Traced.silent (m.reseed key).pollKeypad : Traced Report Machine) =
      (Traced.silent m.pollKeypad).map (reseed key)
    unfold pollKeypad
    rw [show (m.reseed key).keypad = m.keypad from rfl]
    cases m.keypad.lowest? <;> rfl
  | halted => rfl
  | unnamed code => simp [status, Status.name?] at named

/-- With another key, a cycle that does not roll is the same cycle, and reports the same. -/
theorem cycle_reseed (named : m.status.name?.isSome = true) (dry : ¬ m.Rolls) :
    (m.reseed key).cycle = m.cycle.map (reseed key) := by
  cases active : m.isActive with
  | false =>
    rw [cycle, cycle, cycleOn_rest active, cycleOn_rest (m := m.reseed key) active]
    rfl
  | true =>
    by_cases outside : memorySize ≤ m.pc.toNat + 1
    · rw [cycle, cycle, cycleOn_outside active outside,
        cycleOn_outside (m := m.reseed key) active outside]
      rfl
    · have inside := Nat.lt_of_not_le outside
      have other : m.status = .running →
          ∀ x byte, Instruction.ofWord (m.wordOn 0) ≠ .random x byte :=
        fun running x byte rolls => dry ⟨⟨active, running, inside, rfl⟩, random_word rolls⟩
      have proceeds : ((m.fetchedOn 0).reseed key).proceedOn 0 =
          ((m.fetchedOn 0).proceedOn 0).map (reseed key) :=
        proceedOn_reseed (m := m.fetchedOn 0) other named
      rw [cycle, cycle, cycleOn_active active, cycleOn_active (m := m.reseed key) active,
        fetchOn_inside inside, fetchOn_inside (m := m.reseed key) inside, Traced.silent_andThen,
        Traced.silent_andThen]
      change (((m.fetchedOn 0).reseed key).proceedOn 0).map endStep = _
      rw [proceeds]
      rfl

theorem rolls_reseed : (m.reseed key).Rolls ↔ m.Rolls := by
  constructor
  · rintro ⟨⟨active, running, inside, word⟩, shown⟩
    exact ⟨⟨active, running, inside, word⟩, shown⟩
  · rintro ⟨⟨active, running, inside, word⟩, shown⟩
    exact ⟨⟨active, running, inside, word⟩, shown⟩

/-- A roll stores what the key gives, as far as its mask lets through, and goes on to the next
key. -/
theorem cycle_of_rolls (rolls : m.Rolls) :
    m.cycle.value.random = m.random.next ∧
      m.cycle.value.register (Word.x (m.wordOn 0)) = m.random.byte &&& Word.kk (m.wordOn 0) := by
  have done := rolls.1.completes (k := .random) (beq_iff_eq.mpr rolls.2) rfl
  rw [done]
  refine ⟨rfl, ?_⟩
  have stored := register_setRegister (m.fetchedOn 0) (Word.x (m.wordOn 0)) (Word.x (m.wordOn 0))
    (m.random.byte &&& Word.kk (m.wordOn 0))
  rw [if_pos rfl] at stored
  exact stored

/-- A run whose cycles do not roll is the same run with another key. -/
theorem cycles_reseed (h : m.Coherent) {n : Nat} (dry : ∀ t ∈ m.turnsOf n, ¬ t.Rolls) :
    (m.reseed key).cycles n = (m.cycles n).map (reseed key) :=
  Traced.iterate_map fun k hk => cycle_reseed (h.cycles k).status_named (dry _ (mem_turnsOf hk))

theorem turnsOf_reseed (h : m.Coherent) {n : Nat} (dry : ∀ t ∈ m.turnsOf n, ¬ t.Rolls) :
    (m.reseed key).turnsOf n = (m.turnsOf n).map (reseed key) := by
  rw [turnsOf, turnsOf, List.map_map]
  refine List.map_congr_left fun k hk => ?_
  have sooner : ∀ t ∈ m.turnsOf k, ¬ t.Rolls := by
    intro t ht
    obtain ⟨j, hj, rfl⟩ := List.mem_map.mp ht
    exact dry _ (mem_turnsOf ((List.mem_range.mp hj).trans (List.mem_range.mp hk)))
  rw [cycles_reseed h sooner]
  rfl

end Machine

namespace Random.Key

/-- A stream that was at one key meets some machines, one after another, and each of them uses up
the key that it finds. -/
structure Runs (first : Key) (users : List Machine) (last : Key) : Prop where
  found : users.map Machine.random = List.iterate next first users.length
  left : last = next^[users.length] first

theorem Runs.append {first middle last : Key} {users others : List Machine}
    (h : Runs first users middle) (h' : Runs middle others last) :
    Runs first (users ++ others) last := by
  obtain ⟨found, rfl⟩ := h
  obtain ⟨found', rfl⟩ := h'
  refine ⟨?_, ?_⟩
  · rw [List.map_append, found, found', List.length_append, List.iterate_add]
  · rw [List.length_append, Nat.add_comm, Function.iterate_add_apply]

theorem Runs.nil (key : Key) : Runs key [] key :=
  ⟨rfl, rfl⟩

end Random.Key

namespace Machine

open Random.Key

variable {m : Machine} {key : Random.Key}

theorem runs_cycle (named : m.status.name?.isSome = true) :
    Runs m.random ([m].filter Rolls) m.cycle.value.random := by
  by_cases rolls : m.Rolls
  · rw [List.filter_cons_of_pos (by simp [rolls])]
    exact ⟨rfl, (cycle_of_rolls rolls).1⟩
  · -- The machine with its own key is the machine itself, so the key is kept.
    have same : (m.reseed m.random).cycle = m.cycle.map (reseed m.random) :=
      cycle_reseed named rolls
    rw [List.filter_cons_of_neg (by simp [rolls])]
    exact ⟨rfl, congrArg (fun t => t.value.random) same⟩

theorem runs_cycles (h : m.Coherent) (n : Nat) :
    Runs m.random ((m.turnsOf n).filter Rolls) (m.cycles n).value.random := by
  induction n with
  | zero => exact .nil m.random
  | succ n ih =>
    rw [turnsOf_succ, List.filter_append, cycles_add, Traced.andThen_value, cycles_one]
    exact ih.append (runs_cycle (h.cycles n).status_named)

end Machine

namespace Progress.Bar

/-- A bar does not get in the way of a change of the state. -/
theorem step_map {ε σ : Type} {b : Bar} {body : Nat → σ → Traced ε σ} {f : σ → σ} {i : Nat} {s : σ}
    (along : body i (f s) = (body i s).map f) : b.step body i (f s) = (b.step body i s).map f := by
  simp only [step, along]
  rfl

end Progress.Bar

def Session.reseed (key : Random.Key) (s : Session) : Session :=
  { s with machine := s.machine.reseed key }

def Response.reseed (key : Random.Key) (response : Response) : Response :=
  { response with session := response.session.reseed key }

namespace Session

open Machine Random.Key

/-- The machines that roll in the course of requests, in the order in which they do. -/
def rolls (s : Session) : List Request → List Machine
  | [] => []
  | r :: rest => (s.turns r).filter Machine.Rolls ++ (s.handle r).session.rolls rest

variable {s : Session} {r : Request} {key : Random.Key}

theorem rolls_of_mem {requests : List Request} {m : Machine} (hm : m ∈ s.rolls requests) :
    m.Rolls := by
  induction requests generalizing s with
  | nil => cases hm
  | cons r rest ih =>
    rcases List.mem_append.mp hm with here | later
    · exact of_decide_eq_true (List.mem_filter.mp here).2
    · exact ih later

/-- Only the requests that run cycles reach the stream. -/
theorem random_brief (brief : r.cycles? s = none) :
    (s.handle r).session.machine.random = s.machine.random := by
  cases s.course r with
  | run n ran reply _ asked _ _ _ => simp [brief] at asked
  | restart start _ _ begun result _ =>
    have kept : start.random = s.machine.random := by
      rcases begun with rfl | ⟨_, rfl⟩
      · simp only [Machine.reset, Machine.powerOn]
      · rfl
    rcases result with he | ⟨program, he⟩
    · rw [he, kept]
    · rw [he]
      exact kept
  | touch mode keypad redraw _ result _ => rw [result]

theorem runs_handle (h : s.Coherent) (r : Request) :
    Runs s.machine.random ((s.turns r).filter Machine.Rolls)
      (s.handle r).session.machine.random := by
  unfold turns
  cases asked : r.cycles? s with
  | none =>
    rw [random_brief asked]
    exact .nil _
  | some n =>
    cases loaded : s.isLoaded with
    | false =>
      obtain ⟨reply, result⟩ := handle_run_idle loaded asked
      rw [result]
      exact .nil _
    | true =>
      obtain ⟨ran, reply, result, reached, _⟩ := handle_run loaded asked
      rw [result]
      change Runs _ _ ran.value.random
      rw [reached]
      exact Machine.runs_cycles h.machine n

theorem runs_after (h : s.Coherent) (requests : List Request) :
    Runs s.machine.random (s.rolls requests) (s.after requests).machine.random := by
  induction requests generalizing s with
  | nil => exact .nil _
  | cons r rest ih => exact (runs_handle h r).append (ih (h.handle r))

theorem load_reseed (s : Session) (program : List UInt8) :
    (s.reseed key).load program = (s.load program).reseed key := by
  simp only [load, apply_ite (Response.reseed key)]
  cases loaded : s.isLoaded with
  | true =>
    have held : (s.reseed key).isLoaded = true := loaded
    simp only [held, ↓reduceIte]
    rfl
  | false =>
    have none : (s.reseed key).isLoaded = false := loaded
    simp only [none, Bool.false_eq_true, ↓reduceIte]
    rfl

theorem reset_reseed (s : Session) (reload : Bool) :
    (s.reseed key).reset reload = (s.reset reload).reseed key := by
  cases reload with
  | false => rfl
  | true =>
    have same : (s.reseed key).program = s.program := rfl
    simp only [reset, same, ↓reduceIte]
    cases s.program <;> rfl

theorem latch_reseed (s : Session) (number : Int) {f : Machine → Nibble → Machine}
    (along : ∀ m k, f (m.reseed key) k = (f m k).reseed key) :
    (s.reseed key).latch number f = (s.latch number f).reseed key := by
  unfold latch
  cases Keypad.key number with
  | error e => rfl
  | ok k =>
    change { (s.reseed key) with machine := f (s.machine.reseed key) k }.answer _ = _
    rw [along]
    rfl

theorem ran_reseed (h : s.Coherent) {cycles : Int}
    (dry : ∀ m ∈ s.machine.turnsOf cycles.toNat, ¬ m.Rolls) (progress : Bool) :
    (s.reseed key).ran cycles progress = (s.ran cycles progress).map (Machine.reseed key) := by
  cases progress with
  | false =>
    change ((s.machine.reseed key).cycles cycles.toNat).relabel Event.report = _
    rw [cycles_reseed h.machine dry]
    rfl
  | true =>
    have same : (bar cycles).run (fun _ => Machine.cycle) (s.machine.reseed key) =
        ((bar cycles).run (fun _ => Machine.cycle) s.machine).map (Machine.reseed key) := by
      refine Traced.iterate_map fun k hk => Progress.Bar.step_map ?_
      rw [((bar cycles).iterate_spec (fun _ => Machine.cycle) k s.machine).1]
      exact cycle_reseed (h.machine.cycles k).status_named (dry _ (mem_turnsOf hk))
    change ((bar cycles).run (fun _ => Machine.cycle) (s.machine.reseed key)).relabel _ = _
    rw [same]
    rfl

/-- A request that runs cycles is handled the same if its cycles run the same. -/
theorem handle_run_reseed (h : s.Coherent) {n : Nat} (asked : r.cycles? s = some n)
    (dry : ∀ m ∈ s.turns r, ¬ m.Rolls) :
    (s.reseed key).handle r = (s.handle r).reseed key := by
  cases loaded : s.isLoaded with
  | false =>
    have none : (s.reseed key).isLoaded = false := loaded
    cases r with
    | runCycle | runFrame | run _ _ =>
      simp only [handle, runCycle, runFrame, run, loaded, none, Bool.false_eq_true, ↓reduceIte]
      rfl
    | _ => cases asked
  | true =>
    have held : (s.reseed key).isLoaded = true := loaded
    rw [turns_of_loaded loaded asked] at dry
    cases r with
    | runCycle =>
      cases asked
      have same : (s.machine.reseed key).cycles 1 = (s.machine.cycles 1).map (.reseed key) :=
        cycles_reseed h.machine dry
      rw [cycles_one, cycles_one] at same
      simp only [handle, runCycle, loaded, held, ↓reduceIte]
      change (s.reseed key).commit ((s.machine.reseed key).cycle.relabel Event.report) .done = _
      rw [same]
      rfl
    | runFrame =>
      cases asked
      simp only [handle, runFrame, loaded, held, ↓reduceIte]
      change (s.reseed key).commit
        (((s.machine.reseed key).cycles s.cyclesPerFrame).relabel Event.report)
        (.redraw ((s.machine.reseed key).cycles s.cyclesPerFrame).value.needsRedraw) = _
      rw [cycles_reseed h.machine dry]
      rfl
    | run cycles progress =>
      cases asked
      simp only [handle, run, loaded, held, ↓reduceIte]
      rw [ran_reseed h dry]
      rfl
    | _ => cases asked

/-- With another key, a request that does not roll is handled the same, and answered the same. -/
theorem handle_reseed (h : s.Coherent) (dry : ∀ m ∈ s.turns r, ¬ m.Rolls) :
    (s.reseed key).handle r = (s.handle r).reseed key := by
  cases r with
  | load program => exact load_reseed s program
  | loadFile name content =>
    cases content with
    | error e => rfl
    | ok program => exact load_reseed s program
  | reset reload => exact reset_reseed s reload
  | runCycle | runFrame | run _ _ => exact handle_run_reseed h rfl dry
  | keyDown number => exact latch_reseed s number fun _ _ => rfl
  | keyUp number => exact latch_reseed s number fun _ _ => rfl
  | pause | resume | singleStep | consumeRedraw => rfl

theorem turns_reseed (h : s.Coherent) (dry : ∀ m ∈ s.turns r, ¬ m.Rolls) :
    (s.reseed key).turns r = (s.turns r).map (Machine.reseed key) := by
  have same : r.cycles? (s.reseed key) = r.cycles? s := by cases r <;> rfl
  cases asked : r.cycles? s with
  | none => simp only [turns, same, asked, List.map_nil]
  | some n =>
    cases loaded : s.isLoaded with
    | false =>
      have none : (s.reseed key).isLoaded = false := loaded
      simp only [turns, same, asked, loaded, none, Bool.false_eq_true, ↓reduceIte, List.map_nil]
    | true =>
      have held : (s.reseed key).isLoaded = true := loaded
      rw [turns_of_loaded loaded asked] at dry ⊢
      rw [turns_of_loaded held (same.trans asked)]
      exact turnsOf_reseed h.machine dry

/-- With another key, requests that do not roll lead to the same, and are answered the same. -/
theorem after_reseed (key : Random.Key) (h : s.Coherent) {requests : List Request}
    (dry : s.rolls requests = []) :
    (s.reseed key).rolls requests = [] ∧
    (s.reseed key).after requests = (s.after requests).reseed key ∧
    (s.reseed key).responses requests = (s.responses requests).map (Response.reseed key) := by
  induction requests generalizing s with
  | nil => exact ⟨rfl, rfl, rfl⟩
  | cons r rest ih =>
    obtain ⟨first, later⟩ := List.append_eq_nil_iff.mp dry
    have still : ∀ m ∈ s.turns r, ¬ m.Rolls := by simpa using first
    obtain ⟨none, reached, answered⟩ := ih (h.handle r) later
    have turned : ((s.reseed key).turns r).filter Machine.Rolls = [] := by
      rw [turns_reseed h still, List.filter_eq_nil_iff]
      intro m' hm'
      obtain ⟨m, hm, rfl⟩ := List.mem_map.mp hm'
      rw [decide_eq_true_iff, rolls_reseed]
      exact still m hm
    have here : (s.reseed key).handle r = (s.handle r).reseed key := handle_reseed h still
    refine ⟨?_, ?_, ?_⟩
    · rw [rolls, turned, here]
      exact none
    · change ((s.reseed key).handle r).session.after rest = _
      rw [here]
      exact reached
    · rw [responses, here, responses, List.map_cons]
      exact congrArg _ answered

/-- Sessions opened alike but for the seed differ in the key. -/
theorem create_reseed {config : Config} {opened other : Session} {seed : Int}
    (created : create config = .ok opened)
    (created' : create { config with seed := seed } = .ok other) :
    opened.reseed other.machine.random = other := by
  obtain ⟨_, _, _, rfl⟩ := create_ok created
  obtain ⟨_, _, _, rfl⟩ := create_ok created'
  rfl

/-- The random stream goes by the seed and by the number of rolls. Whatever was asked of a session,
its key is that of the seed, moved on once for each word `Cxkk` that was executed since the session
was opened, and each of them stored what the key gave that the ones before it had left. Another
seed makes no difference to a session until then: as long as no roll comes first, requests lead to
the same but for the key, and are answered with the same events and the same outcome, and so are
the cycles that come after them up to the first one that rolls. -/
theorem random_stream {config : Config} {opened : Session} (created : create config = .ok opened)
    (requests : List Request) :
    let s := opened.after requests
    (∃ key, ofSeed? config.seed = some key ∧
      s.machine.random = next^[(opened.rolls requests).length] key ∧
      ∀ (j : Nat) (m : Machine), (opened.rolls requests)[j]? = some m →
        m.random = next^[j] key ∧
        m.cycle.value.register (Word.x (m.wordOn 0)) =
          (next^[j] key).byte &&& Word.kk (m.wordOn 0)) ∧
    ∀ seed other, create { config with seed := seed } = .ok other → opened.rolls requests = [] →
      let key := other.machine.random
      other.rolls requests = [] ∧
      other.after requests = s.reseed key ∧
      (other.responses requests).map (fun r => (r.events, r.outcome)) =
        (opened.responses requests).map (fun r => (r.events, r.outcome)) ∧
      ∀ n, (∀ k, k < n → ¬ (s.machine.cycles k).value.Rolls) →
        (other.after requests).machine.cycles n =
          (s.machine.cycles n).map (Machine.reseed key) := by
  intro s
  have h := coherent_create created
  refine ⟨?_, ?_⟩
  · obtain ⟨key, seeded, _, begun⟩ := create_ok created
    obtain ⟨found, left⟩ := runs_after h requests
    have first : opened.machine.random = key := by
      rw [begun]
      rfl
    rw [first] at found left
    refine ⟨key, seeded, left, ?_⟩
    intro j m hm
    obtain ⟨inside, _⟩ := List.getElem?_eq_some_iff.mp hm
    have met : m.random = next^[j] key := by
      have here := congrArg (·[j]?) found
      rw [List.getElem?_map, hm, List.getElem?_iterate _ _ _ _ inside] at here
      exact Option.some.inj here
    have stored := (cycle_of_rolls (rolls_of_mem (List.mem_of_getElem? hm))).2
    rw [met] at stored
    exact ⟨met, stored⟩
  · intro seed other created' dry key'
    obtain ⟨none, reached, answered⟩ := after_reseed key' h dry
    rw [create_reseed created created'] at none reached answered
    refine ⟨none, reached, ?_, ?_⟩
    · rw [answered, List.map_map]
      rfl
    · intro n quiet
      rw [reached]
      refine cycles_reseed (h.after requests).machine fun t ht => ?_
      obtain ⟨k, hk, rfl⟩ := List.mem_map.mp ht
      exact quiet k (List.mem_range.mp hk)

/-- Three rolls before a reset and one after it. And another seed, which makes no difference to a
program that halts before it comes to roll. -/
theorem random_stream_across_reset :
    let rolling : List Request :=
      [.load [0xC0, 0xFF, 0xC1, 0x0F, 0x12, 0x00], .run 4 false, .reset true, .run 1 false]
    let dry : List Request := [.load [0x6A, 0x42, 0x00, 0xEE, 0xC0, 0xFF], .keyDown 3, .run 5 false]
    let other := standard.reseed ⟨0, 7⟩
    (create .standard = .ok standard ∧ create { Config.standard with seed := 7 } = .ok other ∧
      (standard.rolls rolling).length = 4 ∧ standard.rolls dry = []) ∧
    (standard.after rolling).machine.random = next^[4] ⟨0, 0⟩ ∧
    (∃ m, (standard.rolls rolling)[3]? = some m ∧
      m.cycle.value.register (Word.x 0xC0FF) = (next^[3] ⟨0, 0⟩).byte &&& Word.kk 0xC0FF) ∧
    other.after dry = (standard.after dry).reseed ⟨0, 7⟩ := by
  intro rolling dry other
  have other_created : create { Config.standard with seed := 7 } = .ok other := rfl
  have rolled : (standard.rolls rolling).length = 4 := by decide +kernel
  have words : (standard.rolls rolling)[3]?.map (·.wordOn 0) = some 0xC0FF := by decide +kernel
  have still : standard.rolls dry = [] := by decide +kernel
  obtain ⟨⟨key, seeded, left, found⟩, _⟩ := random_stream create_standard rolling
  obtain rfl : (⟨0, 0⟩ : Random.Key) = key := Option.some.inj seeded
  obtain ⟨m, last, word⟩ := Option.map_eq_some_iff.mp words
  have stored := (found 3 m last).2
  rw [word] at stored
  rw [rolled] at left
  obtain ⟨_, reached, _, _⟩ := (random_stream create_standard dry).2 7 other other_created still
  exact ⟨⟨create_standard, other_created, rolled, still⟩, left, ⟨m, last, stored⟩, reached⟩

end Session

end Chip8
