import Chip8.Proofs.RunCalls

namespace Chip8

def Response.halt? (response : Response) : Option Halt :=
  match response.outcome with
  | .error (.halted halt) => some halt
  | _ => none

def Response.beeps (response : Response) : Nat :=
  response.events.count .beep

/-- Whether a request is a reset, or a load that succeeds. -/
def Request.restarts (s : Session) : Request → Bool
  | .reset _ => true
  | .load program => (s.load program).outcome.isOk
  | .loadFile name content => (s.loadFile name content).outcome.isOk
  | _ => false

namespace Session

/-- The session after requests, the failed ones included. -/
def after (s : Session) (requests : List Request) : Session :=
  requests.foldl (fun s request => (s.handle request).session) s

theorem after_append (s : Session) (requests more : List Request) :
    s.after (requests ++ more) = (s.after requests).after more :=
  List.foldl_append

theorem after_concat (s : Session) (requests : List Request) (r : Request) :
    s.after (requests ++ [r]) = ((s.after requests).handle r).session :=
  List.foldl_append

def responses (s : Session) : List Request → List Response
  | [] => []
  | request :: rest => s.handle request :: (s.handle request).session.responses rest

/-- What a request leads to: a run of cycles, a machine that starts over, or a machine that only
differs in its run mode, its keys and its redraw latch. -/
inductive Course (s : Session) (r : Request) : Prop where
  | run (n : Nat) (ran : Traced Event Machine) (reply : Reply) (loaded : s.isLoaded = true)
      (asked : r.cycles? s = some n) (reached : ran.value = (s.machine.cycles n).value)
      (said : Tells ran.trace (s.machine.cycles n).trace)
      (result : s.handle r = s.commit ran reply)
  | restart (start : Machine) (asked : r.restarts s = true) (brief : r.cycles? s = none)
      (begun : start = s.machine.reset ∨ s.isLoaded = false ∧ start = s.machine)
      (result : (s.handle r).session.machine = start ∨
        ∃ program, (s.handle r).session.machine = (start.load program).value)
      (told : (s.handle r).halt? = none)
  | touch (mode : RunMode) (keypad : Keypad) (redraw : Bool)
      (named : s.machine.runMode.name?.isSome = true → mode.name?.isSome = true)
      (result : (s.handle r).session = { s with machine :=
        { s.machine with runMode := mode, keypad := keypad, needsRedraw := redraw } })
      (told : (s.handle r).halt? = none)

variable {s : Session} {r : Request}

/-- A request that only answers leaves the session as it is. -/
theorem course_answer {outcome : Except Failure Reply} (h : s.handle r = s.answer outcome)
    (told : ∀ halt, outcome ≠ .error (.halted halt)) : s.Course r := by
  refine .touch s.machine.runMode s.machine.keypad s.machine.needsRedraw id ?_ ?_
  · rw [h]
    rfl
  · rw [h]
    unfold Response.halt?
    split
    · rename_i halt he
      exact absurd he (told halt)
    · rfl

theorem course_load {program : List UInt8} (h : s.handle r = s.load program)
    (asked : r.restarts s = (s.load program).outcome.isOk) (brief : r.cycles? s = none) :
    s.Course r := by
  by_cases large : (s.strictLoad && programCapacity < program.length) = true
  · have hl : s.load program = s.answer (.error (.programTooLarge program.length)) := if_pos large
    exact course_answer (h.trans hl) nofun
  · have ok : (s.load program).outcome = .ok .done := by
      simp only [Session.load, if_neg large]
    refine .restart (if s.isLoaded then s.machine.reset else s.machine) ?_ brief ?_
      (.inr ⟨program, ?_⟩) ?_
    · rw [asked, ok]
      rfl
    · cases loaded : s.isLoaded with
      | true => exact .inl rfl
      | false => exact .inr ⟨rfl, rfl⟩
    · simp only [h, Session.load, if_neg large]
    · simp only [Response.halt?, h, ok]

theorem course_reset (reload : Bool) : s.Course (.reset reload) := by
  cases reload with
  | false => exact .restart s.machine.reset rfl rfl (.inl rfl) (.inl rfl) rfl
  | true =>
    refine .restart s.machine.reset rfl rfl (.inl rfl) ?_ rfl
    cases held : s.program with
    | none => exact .inl (by simp [handle, Session.reset, held])
    | some program => exact .inr ⟨program, by simp [handle, Session.reset, held]⟩

theorem course_run {n : Nat} (asked : r.cycles? s = some n) : s.Course r := by
  cases loaded : s.isLoaded with
  | true =>
    obtain ⟨ran, reply, result, reached, said⟩ := handle_run loaded asked
    exact .run n ran reply loaded asked reached said result
  | false =>
    obtain ⟨reply, result⟩ := handle_run_idle loaded asked
    exact course_answer result nofun

/-- The session after a key is pressed or released, or is refused. -/
theorem latch_session {motive : Session → Prop} (number : Int) {f : Machine → Nibble → Machine}
    (refused : motive s) (latched : ∀ key, motive { s with machine := f s.machine key }) :
    motive (s.latch number f).session := by
  unfold latch
  split
  · exact latched _
  · exact refused

theorem course_latch {number : Int} {f : Machine → Nibble → Machine} {pressed : Bool}
    (h : s.handle r = s.latch number f)
    (hf : ∀ m key, f m key = { m with keypad := m.keypad.latch key pressed }) : s.Course r := by
  unfold latch at h
  split at h
  · rename_i key _
    refine .touch s.machine.runMode (s.machine.keypad.latch key pressed) s.machine.needsRedraw id
      ?_ ?_
    · rw [h, change, hf]
      rfl
    · rw [h]
      rfl
  · exact course_answer h nofun

theorem course (s : Session) (r : Request) : s.Course r := by
  cases r with
  | load program => exact course_load rfl rfl rfl
  | loadFile name content =>
    cases content with
    | error e => exact course_answer rfl nofun
    | ok program => exact course_load rfl rfl rfl
  | reset reload => exact course_reset reload
  | runCycle | runFrame | run _ _ => exact course_run rfl
  | pause | resume => exact .touch _ s.machine.keypad s.machine.needsRedraw (fun _ => rfl) rfl rfl
  | singleStep =>
    refine .touch s.machine.singleStep.runMode s.machine.keypad s.machine.needsRedraw ?_ rfl rfl
    intro named
    simp only [Machine.singleStep]
    split
    · rfl
    · exact named
  | keyDown number => exact course_latch rfl fun _ _ => rfl
  | keyUp number => exact course_latch rfl fun _ _ => rfl
  | consumeRedraw => exact .touch s.machine.runMode s.machine.keypad false id rfl rfl

/-- What holds of a session between any two requests. -/
structure Coherent (s : Session) : Prop where
  machine : s.machine.Coherent
  silent : s.machine.beeps = 0
  idle : s.isLoaded = false → s.machine.status = .running

/-- A session is opened with a machine at power-on, whose key is that of the seed, and without a
program. -/
theorem create_ok {config : Config} {opened : Session} (h : create config = .ok opened) :
    ∃ key, Random.Key.ofSeed? config.seed = some key ∧ 0 < opened.cyclesPerFrame ∧
      opened = {
        cyclesPerFrame := config.cyclesPerFrame.toNat
        strictLoad := config.strictLoad
        machine := .powerOn key
        program := none
        assembly := .empty } := by
  unfold create at h
  split at h
  · cases h
  · rename_i positive
    split at h <;> cases h
    rename_i key seeded
    exact ⟨key, seeded, by simp only; omega, rfl⟩

theorem idle_create {config : Config} {opened : Session}
    (created : create config = .ok opened) : opened.isLoaded = false := by
  obtain ⟨key, _, _, rfl⟩ := create_ok created
  rfl

theorem coherent_create {config : Config} {opened : Session} (h : create config = .ok opened) :
    opened.Coherent := by
  obtain ⟨key, _, _, rfl⟩ := create_ok h
  exact ⟨Machine.coherent_powerOn key, rfl, fun _ => rfl⟩

def standard : Session where
  cyclesPerFrame := 10
  strictLoad := false
  machine := .powerOn ⟨0, 0⟩
  program := none
  assembly := .empty

theorem create_standard : create .standard = .ok standard := rfl

/-- What a machine is when it starts over from a coherent session. -/
theorem Coherent.start (h : s.Coherent) {start : Machine}
    (begun : start = s.machine.reset ∨ s.isLoaded = false ∧ start = s.machine) :
    start.Coherent ∧ start.beeps = 0 ∧ start.status = .running := by
  rcases begun with rfl | ⟨idle, rfl⟩
  · exact ⟨Machine.coherent_powerOn _, rfl, rfl⟩
  · exact ⟨h.machine, h.silent, h.idle idle⟩

/-- A machine that starts over runs. -/
theorem Coherent.restart (h : s.Coherent) {start : Machine}
    (begun : start = s.machine.reset ∨ s.isLoaded = false ∧ start = s.machine)
    (result : (s.handle r).session.machine = start ∨
      ∃ program, (s.handle r).session.machine = (start.load program).value) :
    (s.handle r).session.Coherent ∧ (s.handle r).session.machine.status = .running := by
  obtain ⟨hm, hb, hs⟩ := h.start begun
  rcases result with he | ⟨program, he⟩
  · rw [← he] at hm hb hs
    exact ⟨⟨hm, hb, fun _ => hs⟩, hs⟩
  · have hl := hm.load (by simp [hs]) program
    have hb : (start.load program).value.beeps = 0 := hb
    have hs : (start.load program).value.status = .running := hs
    rw [← he] at hl hb hs
    exact ⟨⟨hl, hb, fun _ => hs⟩, hs⟩

theorem Coherent.handle (h : s.Coherent) (r : Request) : (s.handle r).session.Coherent := by
  cases s.course r with
  | run n ran reply loaded _ reached _ result =>
    have hm := h.machine.cycles n
    rw [← reached] at hm
    rw [result]
    refine ⟨{ hm with }, rfl, ?_⟩
    intro idle
    have idle : s.isLoaded = false := idle
    simp [loaded] at idle
  | restart start _ _ begun result _ => exact (h.restart begun result).1
  | touch mode keypad redraw named result _ =>
    rw [result]
    exact ⟨{ h.machine with runMode_named := named h.machine.runMode_named }, h.silent, h.idle⟩

theorem Coherent.after (h : s.Coherent) (requests : List Request) :
    (s.after requests).Coherent := by
  induction requests generalizing s with
  | nil => exact h
  | cons r rest ih => exact ih (h.handle r)

theorem haltOf_some {before after : Machine} {halt : Halt} (h : haltOf before after = some halt) :
    before.fault = none ∧ ∃ f, after.fault = some f ∧
      halt = ⟨some f, after.pc.toNat, after.opcode.toNat⟩ := by
  unfold haltOf at h
  split at h
  · rename_i fresh
    cases h
    simp only [Bool.and_eq_true, Option.isNone_iff_eq_none, Option.isSome_iff_exists] at fresh
    obtain ⟨hb, f, hf⟩ := fresh
    exact ⟨hb, f, hf, by rw [hf]⟩
  · cases h

/-- A request fails with a halt as the machines before and after its run tell. -/
theorem halt?_commit (s : Session) (ran : Traced Event Machine) (reply : Reply) :
    (s.commit ran reply).halt? = haltOf s.machine ran.value := by
  unfold Response.halt? commit
  cases haltOf s.machine ran.value <;> rfl

/-- A halt is told of with a fault that machines halt with by themselves. -/
theorem Coherent.halt_raised (h : s.Coherent) {halt : Halt}
    (told : (s.handle r).halt? = some halt) : halt.isRaised = true := by
  cases s.course r with
  | run n ran reply _ _ reached _ result =>
    rw [result, halt?_commit, reached] at told
    obtain ⟨_, f, hf, rfl⟩ := haltOf_some told
    have named := (h.machine.cycles n).fault_named
    rw [hf] at named
    -- A fault without a name is the only one that machines do not halt with by themselves.
    cases f with
    | unnamed code => cases named
    | _ => rfl
  | restart _ _ _ _ _ quiet => simp [quiet] at told
  | touch _ _ _ _ _ quiet => simp [quiet] at told

/-- Whatever is done to a machine that was booted with a program, it stays coherent. And whatever
is asked of a session, its status, run mode and fault have names, and a halt is told of with a
fault that machines halt with by themselves. -/
theorem coherent_always :
    (∀ random program actions, ((Machine.boot random program).value.actAll actions).Coherent) ∧
    ∀ config opened, create config = .ok opened → ∀ (earlier : List Request) (r : Request),
      let s := opened.after earlier
      s.machine.status.name?.isSome = true ∧ s.machine.runMode.name?.isSome = true ∧
        (Fault.name? s.machine.fault).isSome = true ∧
        ∀ halt, (s.handle r).halt? = some halt → halt.isRaised = true := by
  refine ⟨?_, ?_⟩
  · intro random program actions
    have booted := (Machine.coherent_powerOn random).load nofun program
    exact booted.actAll actions
  · intro config opened created earlier r
    have h := (coherent_create created).after earlier
    exact ⟨h.machine.status_named, h.machine.runMode_named, h.machine.fault_named,
      fun halt told => h.halt_raised told⟩

theorem coherent_after_bare_return :
    ((Machine.boot ⟨0, 0⟩ [0x00, 0xEE]).value.actAll [.singleStep, .cycle]).Coherent ∧
    (create .standard = .ok standard ∧
      ((standard.after [.load [0x00, 0xEE]]).handle .runCycle).halt? =
        some ⟨some .stackUnderflow, 0x200, 0x00EE⟩) ∧
    Halt.isRaised ⟨some .stackUnderflow, 0x200, 0x00EE⟩ = true := by
  have told : ((standard.after [.load [0x00, 0xEE]]).handle .runCycle).halt? =
      some ⟨some .stackUnderflow, 0x200, 0x00EE⟩ := by decide +kernel
  refine ⟨coherent_always.1 _ _ _, ⟨create_standard, told⟩, ?_⟩
  exact (coherent_always.2 _ _ create_standard [.load [0x00, 0xEE]] .runCycle).2.2.2 _ told

end Session

end Chip8
