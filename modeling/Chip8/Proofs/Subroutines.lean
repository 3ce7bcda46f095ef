import Chip8.Proofs.Reachability
import Mathlib.Data.List.Induction
import Mathlib.Data.List.Infix

namespace Chip8.Machine

variable {m : Machine} {w : UInt16}

theorem pollKeypad_stack (m : Machine) : m.pollKeypad.stack = m.stack := by
  unfold pollKeypad
  split <;> rfl

theorem ret_word (h : Instruction.ofWord w = .ret) : w &&& 0xF0FF = 0x00EE := by
  rcases Instruction.ofWord_cases w with ⟨k, hk, he⟩ | hu
  · rw [h] at he
    cases k <;> cases he
    exact beq_iff_eq.mp hk
  · rw [h] at hu
    cases hu

theorem call_word {target : UInt16} (h : Instruction.ofWord w = .call target) :
    w &&& 0xF000 = 0x2000 := by
  rcases Instruction.ofWord_cases w with ⟨k, hk, he⟩ | hu
  · rw [h] at he
    cases k <;> cases he
    exact beq_iff_eq.mp hk
  · rw [h] at hu
    cases hu

theorem Executes.calls (executes : m.Executes w) (word : w &&& 0xF000 = 0x2000)
    (room : m.stack.isFull = false) :
    m.cycle.value = ({ m.fetchedOn 0 with
      stack := m.stack.push m.pc
      pc := Word.nnn w } : Machine).tick.endStep := by
  have shown : Kind.call.pattern.matchesWord w = true := beq_iff_eq.mpr word
  have room : (m.fetchedOn 0).stack.isFull = false := room
  exact executes.completes shown (by
    simp only [Kind.instruction, Kind.withOperands, Operands.ofWord, performOn, room]; rfl)

theorem Executes.overflows (executes : m.Executes w) (word : w &&& 0xF000 = 0x2000)
    (full : m.stack.isFull = true) :
    m.cycle.value = ((m.fetchedOn 0).halt (some .stackOverflow)).value.endStep := by
  have shown : Kind.call.pattern.matchesWord w = true := beq_iff_eq.mpr word
  have full : (m.fetchedOn 0).stack.isFull = true := full
  exact executes.faults shown (by
    simp only [Kind.instruction, Kind.withOperands, Operands.ofWord, performOn, full, ↓reduceIte])

theorem Executes.returns (executes : m.Executes w) (word : w &&& 0xF0FF = 0x00EE)
    (held : m.stack.isEmpty = false) :
    m.cycle.value = ({ m.fetchedOn 0 with
      stack := m.stack.pop
      pc := m.stack.top + 2 } : Machine).tick.endStep := by
  have shown : Kind.ret.pattern.matchesWord w = true := beq_iff_eq.mpr word
  have held : (m.fetchedOn 0).stack.isEmpty = false := held
  exact executes.completes shown (by
    simp only [Kind.instruction, Kind.withOperands, performOn, held]; rfl)

theorem Executes.underflows (executes : m.Executes w) (word : w &&& 0xF0FF = 0x00EE)
    (bare : m.stack.isEmpty = true) :
    m.cycle.value = ((m.fetchedOn 0).halt (some .stackUnderflow)).value.endStep := by
  have shown : Kind.ret.pattern.matchesWord w = true := beq_iff_eq.mpr word
  have bare : (m.fetchedOn 0).stack.isEmpty = true := bare
  exact executes.faults shown (by
    simp only [Kind.instruction, Kind.withOperands, performOn, bare, ↓reduceIte])

theorem cycle_stack (named : m.status.name?.isSome = true)
    (neither : ∀ w, m.Executes w → w &&& 0xF000 ≠ 0x2000 ∧ w &&& 0xF0FF ≠ 0x00EE) :
    m.cycle.value.stack = m.stack := by
  cases turnOn 0 m named with
  | rest _ result | lost _ _ _ result | fault _ _ _ _ result =>
    rw [cycle, result]
    rfl
  | poll _ _ _ result =>
    rw [cycle, result]
    exact pollKeypad_stack (m.fetchedOn 0)
  | complete next active running met result =>
    obtain ⟨inside, hi⟩ := attemptOn_inside met
    obtain ⟨notCall, notRet⟩ := neither _ ⟨active, running, inside, rfl⟩
    rw [cycle, result]
    rcases performOn_cases hi with ⟨_, _, rfl⟩ | ⟨returns, _, _⟩ | ⟨_, calls, _, _⟩ | steady
    · rfl
    · exact absurd (ret_word returns) notRet
    · exact absurd (call_word calls) notCall
    · exact steady.stack

/-- What the next cycle does to the list of return addresses, newest first. -/
inductive StackTurn (m : Machine) : Prop where
  | call (w : UInt16) (executes : m.Executes w) (word : w &&& 0xF000 = 0x2000)
      (room : m.stack.toList.length < stackSize)
      (pushed : m.cycle.value.stack.toList = m.pc :: m.stack.toList)
  | overflow (w : UInt16) (executes : m.Executes w) (word : w &&& 0xF000 = 0x2000)
      (full : m.stack.toList.length = stackSize) (kept : m.cycle.value.stack = m.stack)
      (halted : m.cycle.value.status = .halted)
      (fault : m.cycle.value.fault = some .stackOverflow)
  | ret (w : UInt16) (executes : m.Executes w) (word : w &&& 0xF0FF = 0x00EE) (address : UInt16)
      (popped : m.stack.toList = address :: m.cycle.value.stack.toList)
      (behind : m.cycle.value.pc = address + 2)
  | underflow (w : UInt16) (executes : m.Executes w) (word : w &&& 0xF0FF = 0x00EE)
      (bare : m.stack.toList = []) (kept : m.cycle.value.stack = m.stack)
      (halted : m.cycle.value.status = .halted)
      (fault : m.cycle.value.fault = some .stackUnderflow)
  | other
      (neither : ∀ w, m.Executes w → w &&& 0xF000 ≠ 0x2000 ∧ w &&& 0xF0FF ≠ 0x00EE)
      (kept : m.cycle.value.stack = m.stack)

theorem Orderly.stackTurn (h : m.Orderly) : m.StackTurn := by
  have length := h.stack.length_toList
  by_cases calls : ∃ w, m.Executes w ∧ w &&& 0xF000 = 0x2000
  · obtain ⟨w, executes, word⟩ := calls
    cases full : m.stack.isFull with
    | true =>
      have met := executes.overflows word full
      have reached : stackSize ≤ m.stack.pointer := of_decide_eq_true full
      refine .overflow w executes word ?_ ?_ ?_ ?_
      · rw [length]
        exact Nat.le_antisymm h.room reached
      all_goals
        rw [met]
        rfl
    | false =>
      have room : m.stack.pointer < stackSize := Nat.lt_of_not_le (of_decide_eq_false full)
      refine .call w executes word (length ▸ room) ?_
      rw [executes.calls word full]
      exact CallStack.toList_push room m.pc
  by_cases returns : ∃ w, m.Executes w ∧ w &&& 0xF0FF = 0x00EE
  · obtain ⟨w, executes, word⟩ := returns
    cases bare : m.stack.isEmpty with
    | true =>
      have met := executes.underflows word bare
      have zero : m.stack.pointer = 0 := beq_iff_eq.mp bare
      refine .underflow w executes word ?_ ?_ ?_ ?_
      · rw [← List.length_eq_zero_iff, length, zero]
      all_goals
        rw [met]
        rfl
    | false =>
      have held : 0 < m.stack.pointer := Nat.pos_of_ne_zero (ne_of_beq_false bare)
      have met := executes.returns word bare
      refine .ret w executes word m.stack.top ?_ ?_
      · rw [met]
        exact CallStack.toList_pop h.room held
      · rw [met]
        rfl
  have neither : ∀ w, m.Executes w → w &&& 0xF000 ≠ 0x2000 ∧ w &&& 0xF0FF ≠ 0x00EE :=
    fun w executes => ⟨fun h => calls ⟨w, executes, h⟩, fun h => returns ⟨w, executes, h⟩⟩
  exact .other neither (cycle_stack h.named neither)

theorem act_stack {a : Action} (kept : a.isRestart = false) (still : a ≠ .cycle) :
    (m.act a).stack = m.stack := by
  cases a with
  | cycle => exact absurd rfl still
  | restart program => cases kept
  | _ => rfl

/-- Addresses stay on the stack through an action that does not shrink it below them. -/
theorem act_keeps_below (hr : Reachable m) {a : Action} (kept : a.isRestart = false)
    {held : List UInt16} (below : held <:+ m.stack.toList)
    (above : held.length ≤ (m.act a).stack.pointer) : held <:+ (m.act a).stack.toList := by
  by_cases turn : a = .cycle
  · subst turn
    rw [← (hr.act .cycle).orderly.stack.length_toList] at above
    rw [act] at above ⊢
    cases hr.orderly.stackTurn with
    | call w _ _ _ pushed =>
      rw [pushed]
      exact below.trans (List.suffix_cons _ _)
    | ret w _ _ address popped _ =>
      rw [popped, List.suffix_cons_iff] at below
      rcases below with whole | below
      · rw [whole] at above
        exact absurd above (Nat.not_succ_le_self _)
      · exact below
    | overflow _ _ _ _ same _ _ | underflow _ _ _ _ same _ _ | other _ same =>
      rw [same]
      exact below
  · rw [act_stack kept turn]
    exact below

theorem actAll_keeps_below (hr : Reachable m) {actions : List Action}
    (kept : ∀ a ∈ actions, a.isRestart = false) {held : List UInt16}
    (below : held <:+ m.stack.toList)
    (above : ∀ earlier, earlier <+: actions → held.length ≤ (m.actAll earlier).stack.pointer) :
    held <:+ (m.actAll actions).stack.toList := by
  induction actions using List.reverseRecOn with
  | nil => exact below
  | append_singleton earlier a ih =>
    rw [List.forall_mem_append, List.forall_mem_singleton] at kept
    have before := ih kept.1 fun e he => above e (he.trans (List.prefix_append _ _))
    have now := above _ (List.prefix_refl _)
    rw [actAll_concat] at now ⊢
    exact act_keeps_below (hr.actAll earlier) kept.2 before now

/-- A call that finds room is matched by the first cycle that brings the stack back to where it
was: that cycle returns behind the call and leaves the whole stack as it was before. At every
point of a run the stack is a list of at most sixteen addresses that only calls and returns
change, and those that cannot be carried out halt the machine and leave the list alone. -/
theorem calls_balanced (hr : Reachable m) :
    (∀ w, m.Executes w → w &&& 0xF000 = 0x2000 → m.stack.pointer < stackSize →
      ∀ actions : List Action, (∀ a ∈ actions, a.isRestart = false) →
      (∀ earlier, earlier <+: actions →
        m.stack.pointer < (m.cycle.value.actAll earlier).stack.pointer) →
      let last := m.cycle.value.actAll actions
      last.cycle.value.stack.pointer ≤ m.stack.pointer →
        (∃ r, last.Executes r ∧ r &&& 0xF0FF = 0x00EE) ∧
        last.cycle.value.pc = m.pc + 2 ∧ last.cycle.value.stack = m.stack) ∧
    ∀ actions : List Action,
      let n := m.actAll actions
      n.stack = .ofList n.stack.toList.reverse ∧ n.stack.toList.length ≤ stackSize ∧
      n.StackTurn ∧ ∀ a : Action, a.isRestart = false → a ≠ .cycle →
        (n.act a).stack = n.stack := by
  refine ⟨?_, ?_⟩
  · intro w executes word room actions kept above last back
    have full : m.stack.isFull = false := decide_eq_false (Nat.not_le.mpr room)
    have called : m.cycle.value.stack.toList = m.pc :: m.stack.toList := by
      rw [executes.calls word full]
      exact CallStack.toList_push room m.pc
    have length := hr.orderly.stack.length_toList
    have reached : Reachable last := (hr.act .cycle).actAll actions
    have below : m.pc :: m.stack.toList <:+ last.stack.toList := by
      refine actAll_keeps_below (hr.act .cycle) kept ?_ ?_
      · rw [act, called]
      · intro earlier cut
        rw [List.length_cons, length]
        exact above earlier cut
    have deep : m.stack.pointer < last.stack.pointer := above actions (List.prefix_refl _)
    have clean : last.cycle.value.stack.Clean := (reached.act .cycle).orderly.stack
    cases reached.orderly.stackTurn with
    | ret r returns isRet address popped behind =>
      -- Either the address of this call is the one taken, or it is still below, with all others.
      rw [popped, List.suffix_cons_iff] at below
      rcases below with whole | below
      · obtain ⟨rfl, rest⟩ := List.cons.inj whole
        exact ⟨⟨r, returns, isRet⟩, behind, clean.ext hr.orderly.stack rest.symm⟩
      · have long := below.length_le
        rw [List.length_cons, length, clean.length_toList] at long
        exact absurd back (Nat.not_le.mpr long)
    | call _ _ _ _ pushed =>
      have longer := congrArg List.length pushed
      rw [List.length_cons, clean.length_toList, reached.orderly.stack.length_toList] at longer
      omega
    | overflow _ _ _ _ same _ _ | underflow _ _ _ _ same _ _ | other _ same =>
      rw [same] at back
      exact absurd deep (Nat.not_lt.mpr back)
  · intro actions n
    have reached : Reachable n := hr.actAll actions
    refine ⟨reached.orderly.stack.ofList_toList.symm, ?_, reached.orderly.stackTurn, ?_⟩
    · rw [reached.orderly.stack.length_toList]
      exact reached.orderly.stack.room
    · intro a kept still
      exact act_stack kept still

/-- A subroutine that jumps, calls another one, and is interrupted by keys. -/
theorem calls_balanced_when_nested :
    let m := (boot ⟨0, 0⟩
      [0x22, 0x06, 0x6B, 0x02, 0x12, 0x04, 0x22, 0x0A, 0x00, 0xEE, 0x6A, 0x01, 0x00, 0xEE]).value
    let actions : List Action := [.keyDown 3, .cycle, .cycle, .keyUp 3, .cycle]
    let last := m.cycle.value.actAll actions
    (Reachable m ∧ m.Executes 0x2206 ∧ (0x2206 : UInt16) &&& 0xF000 = 0x2000 ∧
      m.stack.pointer < stackSize ∧ (∀ a ∈ actions, a.isRestart = false) ∧
      (∀ earlier, earlier <+: actions →
        m.stack.pointer < (m.cycle.value.actAll earlier).stack.pointer) ∧
      last.cycle.value.stack.pointer ≤ m.stack.pointer) ∧
    last.cycle.value.pc = 0x202 ∧ last.cycle.value.stack = .empty := by
  intro m actions last
  have reached : Reachable m := .load _ (.powerOn _)
  have executes : m.Executes 0x2206 := ⟨rfl, rfl, by decide, by decide +kernel⟩
  have kept : ∀ a ∈ actions, a.isRestart = false := by decide
  have cuts : ∀ earlier ∈ actions.inits,
      m.stack.pointer < (m.cycle.value.actAll earlier).stack.pointer := by decide +kernel
  have above : ∀ earlier, earlier <+: actions →
      m.stack.pointer < (m.cycle.value.actAll earlier).stack.pointer := by
    intro earlier cut
    exact cuts earlier ((List.mem_inits _ _).mpr cut)
  have back : last.cycle.value.stack.pointer ≤ m.stack.pointer := by decide +kernel
  obtain ⟨_, behind, restored⟩ :=
    (calls_balanced reached).1 0x2206 executes (by decide) (by decide) actions kept above back
  exact ⟨⟨reached, executes, by decide, by decide, kept, above, back⟩, behind, restored⟩

end Chip8.Machine
