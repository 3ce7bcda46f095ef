import Chip8.Proofs.Histories

namespace Chip8

def Request.program? : Request → Option (List UInt8)
  | .load program | .loadFile _ (.ok program) => some program
  | _ => none

theorem Assembly.ofImage_cells (m : Memory) :
    ofImage (m.cells.toList.map fun b => (b.toNat : Int)) = .ok (.ofMemory m) := by
  apply if_neg
  simp

namespace Machine

/-- The bytes of a memory that holds the glyphs and a program and nothing else. -/
def image (program : List UInt8) : List UInt8 :=
  Font.data ++ List.replicate (programStart.toNat - Font.data.length) 0 ++
    program.take programCapacity ++ List.replicate (programCapacity - program.length) 0

theorem font_memory : Font.memory.cells.toList =
    Font.data ++ List.replicate (memorySize - Font.data.length) 0 := by
  have fits : Font.start.toNat + Font.data.length ≤ memorySize := by decide
  rw [Font.memory, Memory.toList_writeAll fits]
  simp only [Memory.blank, Vector.toList_replicate, List.drop_replicate]
  rfl

theorem boot_memory (random : Random.Key) (program : List UInt8) :
    (boot random program).value.memory.cells.toList = image program := by
  have start : programStart.toNat = 512 := rfl
  have glyphs : Font.data.length = 80 := rfl
  have all : memorySize = programStart.toNat + programCapacity := rfl
  have held : (program.take programCapacity).length ≤ programCapacity := List.length_take_le _ _
  have below : Font.memory.cells.toList.take programStart.toNat =
      Font.data ++ List.replicate (programStart.toNat - Font.data.length) 0 := by
    rw [font_memory, List.take_append, List.take_of_length_le (by omega), List.take_replicate,
      Nat.min_eq_left (by omega)]
  have above : Font.memory.cells.toList.drop
      (programStart.toNat + (program.take programCapacity).length) =
        List.replicate (programCapacity - program.length) 0 := by
    have rest : memorySize - Font.data.length - (programStart.toNat +
        (program.take programCapacity).length - Font.data.length) =
          programCapacity - program.length := by
      rw [List.length_take]
      omega
    rw [font_memory, List.drop_append, List.drop_eq_nil_of_le (by omega), List.nil_append,
      List.drop_replicate, rest]
  change (Font.memory.writeAll _ _).cells.toList = _
  rw [Memory.toList_writeAll (by omega), below, above, image]

/-- Whether a machine is as it was at power-on, but for its keys and its run mode. The first load
of a session relies on it, as it does not reset the machine. -/
def Idle (m : Machine) : Prop :=
  ∃ random keypad mode, m = { powerOn random with keypad := keypad, runMode := mode }

variable {m : Machine}

theorem idle_powerOn (random : Random.Key) : (powerOn random).Idle :=
  ⟨random, .released, .running, rfl⟩

theorem Idle.load (h : m.Idle) (program : List UInt8) :
    (m.load program).value = { (boot m.random program).value with
      keypad := m.keypad
      runMode := m.runMode } := by
  obtain ⟨random, keypad, mode, rfl⟩ := h
  rfl

theorem Idle.touched (h : m.Idle) {n : Machine}
    (same : n = { m with keypad := n.keypad, runMode := n.runMode }) : n.Idle := by
  obtain ⟨random, keypad, mode, rfl⟩ := h
  exact ⟨random, n.keypad, n.runMode, same⟩

theorem Idle.clearRedraw (h : m.Idle) : m.clearRedraw.Idle := by
  obtain ⟨random, keypad, mode, rfl⟩ := h
  exact ⟨random, keypad, mode, rfl⟩

end Machine

namespace Session

/-- The machine that a load puts its program into. -/
def start (s : Session) : Machine :=
  if s.isLoaded then s.machine.reset else s.machine

/-- What a session opened with a configuration holds on to between requests. -/
structure Settled (config : Config) (s : Session) : Prop where
  strict : s.strictLoad = config.strictLoad
  idle : s.isLoaded = false → s.machine.Idle
  assembly : ∀ program, s.program = some program →
    Assembly.ofImage ((Machine.image program).map fun b => (b.toNat : Int)) = .ok s.assembly

variable {config : Config} {s opened : Session} {program : List UInt8}

theorem settled_create (created : create config = .ok opened) : opened.Settled config := by
  obtain ⟨key, _, _, rfl⟩ := create_ok created
  exact ⟨rfl, fun _ => Machine.idle_powerOn key, nofun⟩

theorem load_large (large : s.strictLoad = true ∧ programCapacity < program.length) :
    s.load program = s.answer (.error (.programTooLarge program.length)) := by
  apply if_pos
  simp [large]

theorem load_fits (fits : ¬ (s.strictLoad = true ∧ programCapacity < program.length)) :
    (s.load program).outcome = .ok .done ∧
    (s.load program).session = { s with
      machine := (s.start.load program).value
      program := some program
      assembly := .ofMemory (s.start.load program).value.memory } := by
  have small : ¬ (s.strictLoad && decide (programCapacity < program.length)) = true := by
    simpa using fits
  rw [Session.load, if_neg small]
  exact ⟨rfl, rfl⟩

theorem load_refused (failed : (s.load program).outcome.isOk = false) :
    (s.load program).session = s := by
  by_cases large : s.strictLoad = true ∧ programCapacity < program.length
  · rw [load_large large]
    rfl
  · rw [(load_fits large).1] at failed
    cases failed

/-- The machine starts over with a program that is loaded, or it is reset. -/
theorem restart_cases {r : Request} (asked : r.restarts s = true) :
    (∃ program, (s.handle r).session = { s with
      machine := (s.start.load program).value
      program := some program
      assembly := .ofMemory (s.start.load program).value.memory }) ∨
    ∃ reload, r = .reset reload := by
  have done : ∀ program, (s.load program).outcome.isOk = true →
      (s.load program).session = { s with
        machine := (s.start.load program).value
        program := some program
        assembly := .ofMemory (s.start.load program).value.memory } := by
    intro program ok
    by_cases large : s.strictLoad = true ∧ programCapacity < program.length
    · rw [load_large large] at ok
      cases ok
    · exact (load_fits large).2
  cases r with
  | load program => exact .inl ⟨program, done program asked⟩
  | loadFile name content =>
    cases content with
    | error e => cases asked
    | ok program => exact .inl ⟨program, done program asked⟩
  | reset reload => exact .inr ⟨reload, rfl⟩
  | _ => cases asked

/-- A machine that starts over shows a blank display, and its redraw latch is clear. -/
theorem Settled.restart_unlit (h : s.Settled config) {r : Request} (asked : r.restarts s = true) :
    (s.handle r).session.machine.display = .blank ∧
      (s.handle r).session.machine.needsRedraw = false := by
  rcases restart_cases asked with ⟨program, result⟩ | ⟨reload, rfl⟩
  · rw [result]
    change s.start.display = .blank ∧ s.start.needsRedraw = false
    unfold start
    cases loaded : s.isLoaded with
    | true => exact ⟨rfl, rfl⟩
    | false =>
      obtain ⟨random, keypad, mode, same⟩ := h.idle loaded
      rw [same]
      exact ⟨rfl, rfl⟩
  · cases reload with
    | false => exact ⟨rfl, rfl⟩
    | true =>
      simp only [Session.handle, Session.reset, ↓reduceIte]
      cases s.program <;> exact ⟨rfl, rfl⟩

theorem Settled.started (h : s.Settled config) (program : List UInt8) :
    (s.isLoaded = true →
      (s.start.load program).value = (Machine.boot s.machine.random program).value) ∧
    (s.isLoaded = false →
      (s.start.load program).value = { (Machine.boot s.machine.random program).value with
        keypad := s.machine.keypad
        runMode := s.machine.runMode }) ∧
    (s.start.load program).value.memory.cells.toList = Machine.image program := by
  cases loaded : s.isLoaded with
  | true =>
    have begun : s.start = s.machine.reset := if_pos loaded
    rw [begun]
    exact ⟨fun _ => rfl, nofun, Machine.boot_memory _ program⟩
  | false =>
    have begun : s.start = s.machine := if_neg (by simp [loaded])
    have same := (h.idle loaded).load program
    rw [begun, same]
    exact ⟨nofun, fun _ => rfl, Machine.boot_memory s.machine.random program⟩

theorem Settled.load (h : s.Settled config) (program : List UInt8) :
    (s.load program).session.Settled config := by
  by_cases large : s.strictLoad = true ∧ programCapacity < program.length
  · rw [load_large large]
    exact h
  · rw [(load_fits large).2]
    refine ⟨h.strict, nofun, ?_⟩
    intro p hp
    cases hp
    rw [← (h.started program).2.2]
    exact Assembly.ofImage_cells _

theorem Settled.reset (h : s.Settled config) (reload : Bool) :
    (s.reset reload).session.Settled config := by
  cases reload with
  | true =>
    refine ⟨h.strict, ?_, h.assembly⟩
    intro idle
    -- Without a program there is nothing to load again.
    have none : s.program = none := Option.not_isSome_iff_eq_none.mp (Bool.eq_false_iff.mp idle)
    simp only [Session.reset, none]
    exact Machine.idle_powerOn s.machine.random
  | false =>
    have forgotten : s.reset false = ⟨{ s with
      machine := s.machine.reset
      program := none
      assembly := .empty }, [.reset], .ok .done⟩ := rfl
    rw [forgotten]
    refine ⟨h.strict, fun _ => Machine.idle_powerOn s.machine.random, ?_⟩
    intro program held
    cases held

theorem Settled.run (h : s.Settled config) {r : Request} {n : Nat} (asked : r.cycles? s = some n) :
    (s.handle r).session.Settled config := by
  cases loaded : s.isLoaded with
  | true =>
    obtain ⟨ran, reply, result, _, _⟩ := handle_run loaded asked
    rw [result]
    exact ⟨h.strict, fun idle => absurd loaded (Bool.eq_false_iff.mp idle), h.assembly⟩
  | false =>
    obtain ⟨reply, result⟩ := handle_run_idle loaded asked
    rw [result]
    exact h

theorem Settled.change (h : s.Settled config) {f : Machine → Machine}
    (kept : s.machine.Idle → (f s.machine).Idle) : (s.change f).session.Settled config :=
  ⟨h.strict, fun idle => kept (h.idle idle), h.assembly⟩

theorem Settled.latch (h : s.Settled config) (number : Int) {f : Machine → Nibble → Machine}
    (kept : ∀ key, s.machine.Idle → (f s.machine key).Idle) :
    (s.latch number f).session.Settled config :=
  have changed : ∀ key, (s.change (f · key)).session.Settled config :=
    fun key => h.change (kept key)
  latch_session number h changed

theorem Settled.handle (h : s.Settled config) (r : Request) :
    (s.handle r).session.Settled config := by
  cases r with
  | load program => exact h.load program
  | loadFile name content =>
    cases content with
    | error e => exact h
    | ok program => exact h.load program
  | reset reload => exact h.reset reload
  | runCycle | runFrame | run _ _ => exact h.run rfl
  | pause | resume | singleStep => exact h.change fun idle => idle.touched rfl
  | keyDown number | keyUp number => exact h.latch number fun _ idle => idle.touched rfl
  | consumeRedraw => exact ⟨h.strict, fun idle => (h.idle idle).clearRedraw, h.assembly⟩

theorem Settled.after (h : s.Settled config) (requests : List Request) :
    (s.after requests).Settled config := by
  induction requests generalizing s with
  | nil => exact h
  | cons r rest ih => exact ih (h.handle r)

/-- What a load that succeeds makes of a session. -/
structure Afresh (before after : Session) (program : List UInt8) : Prop where
  held : after.program = some program
  memory : after.machine.memory.cells.toList = Machine.image program
  loaded : before.isLoaded = true →
    after.machine = (Machine.boot before.machine.random program).value
  idle : before.isLoaded = false →
    after.machine = { (Machine.boot before.machine.random program).value with
      keypad := before.machine.keypad
      runMode := before.machine.runMode }

theorem handle_load {r : Request} (asked : r.program? = some program) :
    s.handle r = s.load program := by
  cases r with
  | load other =>
    cases asked
    rfl
  | loadFile name content =>
    cases content with
    | error e => cases asked
    | ok other =>
      cases asked
      rfl
  | _ => cases asked

theorem Settled.afresh (h : s.Settled config)
    (fits : ¬ (s.strictLoad = true ∧ programCapacity < program.length)) :
    Afresh s (s.load program).session program := by
  obtain ⟨loaded, idle, memory⟩ := h.started program
  rw [(load_fits fits).2]
  exact ⟨rfl, memory, loaded, idle⟩

/-- Whatever was asked of a session before, a load that succeeds starts its program from power-on,
and only a session without a program keeps what was set of its keys and its run mode. A reset
starts the loaded program the same way, or forgets it. The assembly is always that of the program
as it was loaded. A load fails only if it is to be strict and the program does not fit, and where
a load fails or a file is not read nothing changes. -/
theorem loads_afresh (created : create config = .ok opened) (earlier : List Request) :
    let s := opened.after earlier
    (∀ r program, r.program? = some program →
      let response := s.handle r
      (response.outcome = .error (.programTooLarge program.length) ↔
        config.strictLoad = true ∧ programCapacity < program.length) ∧
      (∀ f, response.outcome = .error f →
        f = .programTooLarge program.length ∧ response.session = s) ∧
      ∀ reply, response.outcome = .ok reply → Afresh s response.session program) ∧
    (∀ program, s.program = some program →
      (s.handle (.reset true)).session =
        { s with machine := (Machine.boot s.machine.random program).value } ∧
      Assembly.ofImage ((Machine.image program).map fun b => (b.toNat : Int)) = .ok s.assembly) ∧
    (s.handle (.reset false)).session =
      { s with machine := .powerOn s.machine.random, program := none, assembly := .empty } ∧
    ∀ name e, s.handle (.loadFile name (.error e)) = ⟨s, [], .error (.notRead name e)⟩ := by
  intro s
  have h : s.Settled config := (settled_create created).after earlier
  refine ⟨?_, ?_, rfl, fun _ _ => rfl⟩
  · intro r program asked response
    have result : response = s.load program := handle_load asked
    rw [result, ← h.strict]
    by_cases large : s.strictLoad = true ∧ programCapacity < program.length
    · rw [load_large large]
      refine ⟨iff_of_true rfl large, ?_, nofun⟩
      intro f failed
      cases failed
      exact ⟨rfl, rfl⟩
    · have done := (load_fits large).1
      refine ⟨iff_of_false ?_ large, ?_, fun _ _ => h.afresh large⟩
      · simp [done]
      · simp [done]
  · intro program held
    refine ⟨?_, h.assembly program held⟩
    simp only [handle, Session.reset, held, ↓reduceIte, Machine.boot, Machine.reset]

/-- A program that stored its registers over its own end and halted leaves nothing to the next
one, which is shorter. -/
theorem loads_afresh_after_halt :
    let s := standard.after
      [.load [0x61, 0x07, 0xA2, 0x08, 0xF1, 0x55, 0x00, 0xEE, 0xFF, 0xFF], .keyDown 5, .runFrame,
        .pause]
    (create .standard = .ok standard ∧ s.isLoaded = true ∧ s.machine.status = .halted ∧
      s.machine.memory.read 0 0x209 = 7) ∧
    (s.handle (.load [0x12])).session.machine = (Machine.boot s.machine.random [0x12]).value ∧
    (s.handle (.load [0x12])).session.machine.memory.read 0 0x209 = 0 := by
  intro s
  have loaded : s.isLoaded = true := by decide +kernel
  have status : s.machine.status = .halted := by decide +kernel
  have stored : s.machine.memory.read 0 0x209 = 7 := by decide +kernel
  obtain ⟨loads, _⟩ := loads_afresh create_standard
    [.load [0x61, 0x07, 0xA2, 0x08, 0xF1, 0x55, 0x00, 0xEE, 0xFF, 0xFF], .keyDown 5, .runFrame,
      .pause]
  obtain ⟨_, _, fresh⟩ := loads (.load [0x12]) [0x12] rfl
  have booted := (fresh .done rfl).loaded loaded
  refine ⟨⟨create_standard, loaded, status, stored⟩, booted, ?_⟩
  rw [booted]
  decide +kernel

end Session

end Chip8
