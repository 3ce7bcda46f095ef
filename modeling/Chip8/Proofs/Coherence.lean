import Chip8.Proofs.Reachability

namespace Chip8

namespace CallStack

/-- The slots in use hold addresses of words in memory, and the others hold zero. -/
structure Tidy (s : CallStack) : Prop where
  room : s.pointer ≤ stackSize
  used : ∀ i (h : i < stackSize), i < s.pointer → (s.slots[i]).toNat ≤ 0xFFE
  free : ∀ i (h : i < stackSize), s.pointer ≤ i → s.slots[i] = 0

variable {s : CallStack}

theorem Tidy.slot_le (hs : s.Tidy) (i : Nat) (h : i < stackSize) : (s.slots[i]).toNat ≤ 0xFFE := by
  by_cases hi : i < s.pointer
  · exact hs.used i h hi
  · rw [hs.free i h (Nat.le_of_not_lt hi)]
    decide

theorem Tidy.top_le (hs : s.Tidy) : s.top.toNat ≤ 0xFFE :=
  hs.slot_le (Nibble.ofNat (min (s.pointer - 1) (stackSize - 1))).val (Fin.isLt _)

theorem Tidy.empty : empty.Tidy :=
  ⟨Nat.zero_le _, fun _ _ hi => absurd hi (Nat.not_lt_zero _), Clean.empty.free⟩

theorem Tidy.clean (hs : s.Tidy) : s.Clean :=
  ⟨hs.room, hs.free⟩

theorem Tidy.push (hs : s.Tidy) (full : s.isFull = false) {address : UInt16}
    (ha : address.toNat ≤ 0xFFE) : (s.push address).Tidy := by
  have clean := hs.clean.push full address
  refine ⟨clean.room, ?_, clean.free⟩
  intro i h _
  simp only [CallStack.push, Vector.getElem_setIfInBounds]
  split
  · exact ha
  · exact hs.slot_le i h

theorem Tidy.pop (hs : s.Tidy) : s.pop.Tidy := by
  have clean := hs.clean.pop
  refine ⟨clean.room, ?_, clean.free⟩
  intro i h hi
  have hi : i < s.pointer - 1 := hi
  simp only [CallStack.pop, Vector.getElem_setIfInBounds]
  rw [if_neg (by omega)]
  exact hs.slot_le i h

end CallStack

namespace Machine

/-- What holds of a machine between any two actions. The clauses need one another: a call pushes an
address below the end of memory because the fetch was inside, and a key wait goes on at the word
that began it because nothing is written to memory in the meantime. -/
structure Coherent (m : Machine) : Prop where
  stack : m.stack.Tidy
  pc_le : m.pc.toNat ≤ 0x10FE
  status_named : m.status.name?.isSome = true
  runMode_named : m.runMode.name?.isSome = true
  fault_named : (Fault.name? m.fault).isSome = true
  halted_iff : m.status = .halted ↔ m.fault ≠ none
  keyTarget_lt : m.keyTarget.toNat < 16
  waiting : m.status = .awaitingKey → m.pc.toNat ≤ 0xFFE ∧
    m.wordOn 0 &&& 0xF0FF = 0xF00A ∧ (Word.x (m.wordOn 0)).val = m.keyTarget.toNat

variable {m next : Machine}

theorem Coherent.no_fault (h : m.Coherent) (hs : m.status ≠ .halted) : m.fault = none :=
  Classical.byContradiction fun hf => hs (h.halted_iff.mpr hf)

theorem coherent_powerOn (random : Random.Key) : (powerOn random).Coherent where
  stack := .empty
  pc_le := show programStart.toNat ≤ 0x10FE by decide
  status_named := rfl
  runMode_named := rfl
  fault_named := rfl
  halted_iff := by simp [powerOn]
  keyTarget_lt := show (0 : UInt8).toNat < 16 by decide
  waiting := fun h => by cases h

/-- A program may be loaded while no key is awaited. -/
theorem Coherent.load (h : m.Coherent) (hs : m.status ≠ .awaitingKey) (program : List UInt8) :
    (m.load program).value.Coherent :=
  { h with waiting := fun hw => absurd hw hs }

theorem Coherent.setRunMode (h : m.Coherent) {mode : RunMode} (hm : mode.name?.isSome = true) :
    ({ m with runMode := mode } : Machine).Coherent :=
  { h with runMode_named := hm }

theorem Coherent.endStep (h : m.Coherent) : m.endStep.Coherent := by
  apply h.setRunMode
  split
  · rfl
  · exact h.runMode_named

theorem Coherent.singleStep (h : m.Coherent) : m.singleStep.Coherent := by
  apply h.setRunMode
  split
  · rfl
  · exact h.runMode_named

theorem Coherent.fetched (h : m.Coherent) : (m.fetchedOn 0).Coherent :=
  { h with }

theorem Coherent.tick (h : m.Coherent) : m.tick.Coherent :=
  { h with }

theorem Coherent.halt (h : m.Coherent) {f : Fault} (hf : f ∈ Fault.raised) :
    (m.halt (some f)).value.Coherent where
  stack := h.stack
  pc_le := h.pc_le
  status_named := rfl
  runMode_named := h.runMode_named
  fault_named := by cases f <;> simp_all [Fault.raised, Machine.halt, Fault.name?]
  halted_iff := by simp [Machine.halt]
  keyTarget_lt := h.keyTarget_lt
  waiting := fun hw => by cases hw

/-- The end of a key wait moves on from an instruction that lies in memory. -/
theorem Coherent.poll (h : m.Coherent) (hw : m.status = .awaitingKey) : m.pollKeypad.Coherent := by
  unfold pollKeypad
  split
  · have hpc := (h.waiting hw).1
    refine { h with
      pc_le := ?_
      status_named := rfl
      halted_iff := ?_
      waiting := fun hr => by cases hr }
    · change (m.pc + 2).toNat ≤ 0x10FE
      simp only [UInt16.toNat_add, UInt16.reduceToNat]
      omega
    · have hf := h.no_fault (by simp [hw])
      simp [advance, hf]
  · exact h

theorem toNat_ofNat_nibble (x : Nibble) : (UInt8.ofNat x.val).toNat = x.val := by
  simp only [UInt8.toNat_ofNat']
  omega

/-- A word that decodes to a key wait shows its pattern and names the register. -/
theorem awaitKey_word {w : UInt16} {x : Nibble} (h : Instruction.ofWord w = .awaitKey x) :
    w &&& 0xF0FF = 0xF00A ∧ Word.x w = x := by
  rcases Instruction.ofWord_cases w with ⟨k, hk, he⟩ | hu
  · rw [h] at he
    cases k <;> cases he
    exact ⟨beq_iff_eq.mp hk, rfl⟩
  · rw [h] at hu
    cases hu

theorem Coherent.attempt (h : m.Coherent) (hs : m.status = .running)
    (met : m.attemptOn 0 = .ok next) : next.Coherent := by
  obtain ⟨inside, hi⟩ := attemptOn_inside met
  have hin : m.pc.toNat ≤ 0xFFE := by simp only [memorySize] at inside; omega
  have hpc : next.pc.toNat ≤ 0x10FE := by
    rw [performOn_pc hi]
    exact nextPc_le hin h.stack.top_le
  obtain ⟨hmode, hfault, _, _⟩ := performOn_kept hi
  have none : m.fault = none := h.no_fault (by simp [hs])
  -- Only a key wait, a return and a call touch what the clauses other than `pc_le` are about.
  rcases performOn_cases hi with ⟨x, hx, rfl⟩ | ⟨_, _, rfl⟩ | ⟨target, _, room, rfl⟩ | hk
  · obtain ⟨hword, hreg⟩ := awaitKey_word hx
    have hval := toNat_ofNat_nibble x
    have hkey : (UInt8.ofNat x.val).toNat < 16 := by
      rw [hval]
      exact x.isLt
    exact { h with
      status_named := rfl
      halted_iff := by simp [fetchedOn, none]
      keyTarget_lt := hkey
      waiting := fun _ => ⟨hin, hword, hreg ▸ hval.symm⟩ }
  · exact { h.fetched with
      stack := h.stack.pop
      pc_le := hpc
      waiting := fun hw => by simp [fetchedOn, hs] at hw }
  · exact { h.fetched with
      stack := h.stack.push room hin
      pc_le := hpc
      waiting := fun hw => by simp [fetchedOn, hs] at hw }
  · have hrun : next.status = .running := hk.status.trans hs
    exact {
      stack := hk.stack ▸ h.stack
      pc_le := hpc
      status_named := hk.status ▸ h.status_named
      runMode_named := hmode ▸ h.runMode_named
      fault_named := hfault ▸ h.fault_named
      halted_iff := by simp [hrun, hfault, fetchedOn, none]
      keyTarget_lt := hk.keyTarget ▸ h.keyTarget_lt
      waiting := fun hw => by simp [hrun] at hw }

theorem Coherent.cycle (h : m.Coherent) : m.cycle.value.Coherent := by
  cases turnOn 0 m h.status_named with
  | rest _ result =>
    rw [Machine.cycle, result]
    exact h.endStep
  | poll _ waiting _ result =>
    rw [Machine.cycle, result]
    exact (h.fetched.poll waiting).endStep
  | lost _ waiting outside _ =>
    -- The fetch of a machine that waits cannot leave memory: it is where the wait began.
    have hin := (h.waiting waiting).1
    simp only [memorySize] at outside
    omega
  | fault f _ _ met result =>
    rw [Machine.cycle, result]
    exact (h.fetched.halt (attemptOn_raised met)).endStep
  | complete next _ running met result =>
    rw [Machine.cycle, result]
    exact (h.attempt running met).tick.endStep

theorem Coherent.cycles (h : m.Coherent) (n : Nat) : (m.cycles n).value.Coherent := by
  induction n generalizing m with
  | zero => exact h
  | succ n ih =>
    rw [cycles_succ]
    exact ih h.cycle

theorem Coherent.act (h : m.Coherent) (a : Action) : (m.act a).Coherent := by
  cases a with
  | cycle => exact h.cycle
  | pause | resume => exact h.setRunMode rfl
  | singleStep => exact h.singleStep
  | restart program => exact (coherent_powerOn m.random).load nofun program
  | _ => exact { h with }

theorem Coherent.actAll (h : m.Coherent) (actions : List Action) : (m.actAll actions).Coherent := by
  induction actions generalizing m with
  | nil => exact h
  | cons a rest ih => exact ih (h.act a)

end Machine

end Chip8
