import Chip8.Proofs.Beeps
import Chip8.Proofs.Halting

namespace Chip8

/-- A request to run cycles: one, a frame, or a number of them with or without a bar. -/
inductive Batch where
  | cycle
  | frame
  | run (cycles : Nat) (progress : Bool)

namespace Batch

def request : Batch → Request
  | cycle => .runCycle
  | frame => .runFrame
  | run cycles progress => .run cycles progress

def size (s : Session) : Batch → Nat
  | cycle => 1
  | frame => s.cyclesPerFrame
  | run cycles _ => cycles

theorem request_cycles (s : Session) (b : Batch) : b.request.cycles? s = some (b.size s) := by
  cases b <;> rfl

end Batch

namespace Machine

variable {m : Machine}

theorem halting?_clearBeeps (m : Machine) : m.clearBeeps.halting? = m.halting? := by
  have hc := cycle_clearBeeps m
  have hs : m.clearBeeps.cycle.value.status = m.cycle.value.status := congrArg (·.status) hc
  have hf : m.clearBeeps.cycle.value.fault = m.cycle.value.fault := congrArg (·.fault) hc
  unfold halting?
  rw [hs, hf]
  rfl

theorem halting?_congr {m' : Machine} (h : m.clearBeeps = m'.clearBeeps) :
    m.halting? = m'.halting? := by
  rw [← halting?_clearBeeps, h, halting?_clearBeeps]

theorem haltings_cut (m : Machine) (a first n : Nat) :
    ((m.cycles a).value.clearBeeps).haltings first n = m.haltings (a + first) n := by
  have same : ∀ k, (((m.cycles a).value.clearBeeps).cycles (first + k)).value.halting? =
      (m.cycles (a + first + k)).value.halting? := by
    intro k
    rw [halting?_congr (cycles_cut m a (first + k)), Nat.add_assoc]
  simp only [haltings, same]

theorem mem_haltings {first n : Nat} {halt : Halt} :
    halt ∈ m.haltings first n ↔
      ∃ k, first ≤ k ∧ k < first + n ∧ (m.cycles k).value.halting? = some halt := by
  simp only [haltings, List.mem_filterMap, List.mem_range]
  constructor
  · rintro ⟨k, hk, he⟩
    exact ⟨first + k, Nat.le_add_right first k, Nat.add_lt_add_left hk first, he⟩
  · rintro ⟨k, low, high, he⟩
    refine ⟨k - first, by omega, ?_⟩
    rw [Nat.add_sub_cancel' low]
    exact he

/-- A machine halts at most once in a run. -/
theorem haltings_length (h : m.Coherent) (n : Nat) : (m.haltings 0 n).length ≤ 1 := by
  rw [← Session.haltOf_cycles h]
  cases Session.haltOf m (m.cycles n).value with
  | none => exact Nat.zero_le 1
  | some halt => exact Nat.le_refl 1

theorem expiries_le (m : Machine) (first n : Nat) : m.expiries first n ≤ n := by
  have h := List.countP_le_length (p := fun k => (m.cycles (first + k)).value.expires)
    (l := List.range n)
  rw [List.length_range] at h
  exact h

end Machine

namespace Session

open Machine

variable {s : Session}

def span (s : Session) (batches : List Batch) : Nat :=
  batches.foldr (fun b total => b.size s + total) 0

/-- How many beeps a host hears from requests together. -/
def heard (s : Session) (requests : List Request) : Nat :=
  ((s.responses requests).flatMap Response.events).count .beep

/-- Whether the sound timer runs out at most 255 times in each batch. -/
def Modest (s : Session) (batches : List Batch) : Prop :=
  ∀ before b rest, batches = before ++ b :: rest →
    s.machine.expiries (s.span before) (b.size s) ≤ 255

theorem Tells.count_beep {events : List Event} {reports : List Report}
    (h : Tells events reports) : events.count .beep = 0 := by
  apply List.count_eq_zero.mpr
  intro hb
  rcases h _ hb with ⟨r, _, he⟩ | ⟨call, he⟩
  · cases he
  · cases he

/-- What a batch leads to, and what the host is told. -/
theorem handle_batch (h : s.Coherent) (loaded : s.isLoaded = true) (b : Batch) :
    (s.handle b.request).session =
      { s with machine := (s.machine.cycles (b.size s)).value.clearBeeps } ∧
    (s.handle b.request).halt?.toList = s.machine.haltings 0 (b.size s) ∧
    (s.handle b.request).beeps = min 255 (s.machine.expiries 0 (b.size s)) := by
  obtain ⟨ran, reply, result, reached, said⟩ := handle_run loaded (b.request_cycles s)
  rw [result]
  refine ⟨?_, ?_, ?_⟩
  · rw [← reached]
    rfl
  · rw [halt?_commit, reached, haltOf_cycles h.machine]
  · have counted := beeps_cycles h.machine (b.size s)
    rw [h.silent, ← reached] at counted
    simp only [UInt8.reduceToNat, Nat.zero_add] at counted
    simp only [Response.beeps, commit, List.count_append, said.count_beep,
      List.count_replicate_self, counted, Nat.zero_add]

/-- Batches lead to the machine that all their cycles lead to. -/
theorem after_batches (h : s.Coherent) (loaded : s.isLoaded = true) (batches : List Batch) :
    s.after (batches.map Batch.request) =
      { s with machine := (s.machine.cycles (s.span batches)).value.clearBeeps } := by
  induction batches generalizing s with
  | nil =>
    have silent := clearBeeps_of_silent h.silent
    change s = { s with machine := s.machine.clearBeeps }
    rw [silent]
  | cons b rest ih =>
    obtain ⟨result, _, _⟩ := handle_batch h loaded b
    have hn := h.handle b.request
    change (s.handle b.request).session.after _ = _
    rw [result] at hn ⊢
    rw [ih hn loaded]
    simp only [cycles_cut]
    rfl

theorem span_cons (s : Session) (b : Batch) (rest : List Batch) :
    s.span (b :: rest) = b.size s + s.span rest := rfl

/-- Batches tell of the halt that one of all their cycles may lead to, and of nothing else. -/
theorem told_batches (h : s.Coherent) (loaded : s.isLoaded = true) (batches : List Batch) :
    (s.responses (batches.map Batch.request)).filterMap Response.halt? =
      s.machine.haltings 0 (s.span batches) := by
  induction batches generalizing s with
  | nil => rfl
  | cons b rest ih =>
    obtain ⟨result, told, _⟩ := handle_batch h loaded b
    have hn := h.handle b.request
    rw [result] at hn
    have later := ih hn loaded
    rw [haltings_cut, Nat.add_zero] at later
    rw [span_cons, haltings_add, Nat.zero_add, ← told, List.map_cons, responses, result,
      List.filterMap_cons, later]
    cases (s.handle b.request).halt? <;> rfl

/-- The batches that follow one are modest from the session that it leads to. -/
theorem Modest.tail {b : Batch} {rest : List Batch} (modest : s.Modest (b :: rest)) :
    Modest { s with machine := (s.machine.cycles (b.size s)).value.clearBeeps } rest := by
  intro before c later he
  have hc := modest (b :: before) c later (by rw [he]; rfl)
  rw [span_cons] at hc
  rw [expiries_cut]
  exact hc

/-- A batch of at most 255 cycles cannot lose a beep. -/
theorem modest_of_size {batches : List Batch} (small : ∀ b ∈ batches, b.size s ≤ 255) :
    s.Modest batches := by
  intro before b rest he
  have hb : b ∈ batches := by
    rw [he]
    exact List.mem_append_right _ List.mem_cons_self
  exact Nat.le_trans (expiries_le _ _ _) (small b hb)

/-- Batches without more than 255 expiries in one of them lose no beep. -/
theorem beeps_batches (h : s.Coherent) (loaded : s.isLoaded = true) {batches : List Batch}
    (modest : s.Modest batches) :
    s.heard (batches.map Batch.request) = s.machine.expiries 0 (s.span batches) := by
  induction batches generalizing s with
  | nil => rfl
  | cons b rest ih =>
    obtain ⟨result, _, heard⟩ := handle_batch h loaded b
    have few : s.machine.expiries 0 (b.size s) ≤ 255 := modest [] b rest rfl
    rw [Nat.min_eq_right few] at heard
    have hn := h.handle b.request
    rw [result] at hn
    have later := ih hn loaded modest.tail
    rw [expiries_cut, Nat.add_zero] at later
    rw [span_cons, expiries_add, Nat.zero_add, ← heard, List.map_cons, Session.heard, responses,
      result, List.flatMap_cons, List.count_append]
    exact congrArg _ later

/-- What one of several batches tells, by the cycles that it takes. -/
theorem batch_within (h : s.Coherent) (loaded : s.isLoaded = true) (before : List Batch)
    (b : Batch) :
    let response := (s.after (before.map Batch.request)).handle b.request
    response.halt?.toList = s.machine.haltings (s.span before) (b.size s) ∧
      response.beeps = min 255 (s.machine.expiries (s.span before) (b.size s)) := by
  have hb := h.after (before.map Batch.request)
  rw [after_batches h loaded before] at hb ⊢
  obtain ⟨_, told, heard⟩ := handle_batch hb loaded b
  rw [haltings_cut, Nat.add_zero] at told
  rw [expiries_cut, Nat.add_zero] at heard
  exact ⟨told, heard⟩

/-- However the same number of cycles is cut into batches, in whatever state of a session with a
program: the session is the same in the end, and so are the halts told of, of which there is one
at most. A batch, after whatever others, tells of a halt exactly if the cycle that halts is one of
its own, and beeps as often as the sound timer runs out in its cycles, up to 255 times. So the
number of beeps is the same where no batch exceeds that. -/
theorem batches_agree {config : Config} {opened : Session} (created : create config = .ok opened)
    (earlier : List Request) (loaded : (opened.after earlier).isLoaded = true)
    (xs ys : List Batch)
    (total : (opened.after earlier).span xs = (opened.after earlier).span ys) :
    let s := opened.after earlier
    s.after (xs.map Batch.request) = s.after (ys.map Batch.request) ∧
    (s.responses (xs.map Batch.request)).filterMap Response.halt? =
      (s.responses (ys.map Batch.request)).filterMap Response.halt? ∧
    ((s.responses (xs.map Batch.request)).filterMap Response.halt?).length ≤ 1 ∧
    (∀ (before : List Batch) (b : Batch),
      let response := (s.after (before.map Batch.request)).handle b.request
      (∀ halt, response.halt? = some halt ↔
        ∃ k, s.span before ≤ k ∧ k < s.span before + b.size s ∧
          (s.machine.cycles k).value.halting? = some halt) ∧
      response.beeps = min 255 (s.machine.expiries (s.span before) (b.size s))) ∧
    (s.Modest xs → s.Modest ys →
      s.heard (xs.map Batch.request) = s.heard (ys.map Batch.request)) := by
  intro s
  have h : s.Coherent := (coherent_create created).after earlier
  refine ⟨?_, ?_, ?_, ?_, ?_⟩
  · rw [after_batches h loaded xs, after_batches h loaded ys, total]
  · rw [told_batches h loaded xs, told_batches h loaded ys, total]
  · rw [told_batches h loaded xs]
    exact haltings_length h.machine _
  · intro before b
    obtain ⟨told, heard⟩ := batch_within h loaded before b
    refine ⟨?_, heard⟩
    intro halt
    rw [← mem_haltings, ← told, Option.mem_toList]
  · intro mx my
    rw [beeps_batches h loaded mx, beeps_batches h loaded my, total]

theorem batches_agree_at_bare_return :
    let s := standard.after [.load [0x00, 0xE0, 0x00, 0xEE]]
    (create .standard = .ok standard ∧ s.isLoaded = true ∧
      s.span [.cycle, .frame] = s.span [.run 11 true] ∧
      s.Modest [.cycle, .frame] ∧ s.Modest [.run 11 true]) ∧
    s.after [.runCycle, .runFrame] = s.after [.run 11 true] ∧
    s.heard [.runCycle, .runFrame] = s.heard [.run 11 true] := by
  intro s
  have cut : s.Modest [.cycle, .frame] := by
    apply modest_of_size
    intro b hb
    rcases List.mem_cons.mp hb with rfl | hb
    · exact (by decide : 1 ≤ 255)
    · rw [List.mem_singleton.mp hb]
      exact (by decide : 10 ≤ 255)
  have whole : s.Modest [.run 11 true] := by
    apply modest_of_size
    intro b hb
    rw [List.mem_singleton.mp hb]
    exact (by decide : 11 ≤ 255)
  obtain ⟨same, _, _, _, heard⟩ := batches_agree create_standard
    [.load [0x00, 0xE0, 0x00, 0xEE]] rfl [.cycle, .frame] [.run 11 true] rfl
  exact ⟨⟨create_standard, rfl, rfl, cut, whole⟩, same, heard cut whole⟩

end Session

end Chip8
