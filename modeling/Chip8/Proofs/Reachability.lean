import Chip8.Machine.Control
import Chip8.Proofs.Cycles

namespace Chip8

/-- Something a host does to a machine that holds a program. -/
inductive Action where
  | cycle
  | keyDown (key : Nibble)
  | keyUp (key : Nibble)
  | pause
  | resume
  | singleStep
  | clearRedraw
  | clearBeeps
  | restart (program : List UInt8)
  deriving DecidableEq

def Action.isRestart : Action → Bool
  | restart _ => true
  | _ => false

namespace Machine

variable {bus : UInt8} {m next : Machine}

/-- Does one thing to a machine. To restart it is to reset it and load a program at once. -/
def act (m : Machine) : Action → Machine
  | .cycle => m.cycle.value
  | .keyDown key => m.keyDown key
  | .keyUp key => m.keyUp key
  | .pause => m.pause
  | .resume => m.resume
  | .singleStep => m.singleStep
  | .clearRedraw => m.clearRedraw
  | .clearBeeps => m.clearBeeps
  | .restart program => (m.reset.load program).value

def actAll (m : Machine) (actions : List Action) : Machine :=
  actions.foldl act m

theorem actAll_concat (m : Machine) (actions : List Action) (a : Action) :
    m.actAll (actions ++ [a]) = (m.actAll actions).act a :=
  List.foldl_append

inductive Reachable : Machine → Prop where
  | powerOn (random : Random.Key) : Reachable (powerOn random)
  | act {m : Machine} (a : Action) : Reachable m → Reachable (m.act a)
  | load {m : Machine} (program : List UInt8) : Reachable m → Reachable (m.load program).value
  | reset {m : Machine} : Reachable m → Reachable m.reset
  | execute {m : Machine} (w : UInt16) : Reachable m → Reachable (m.execute w).value
  | fetch {m : Machine} : Reachable m → Reachable m.fetch.value
  | tick {m : Machine} : Reachable m → Reachable m.tick
  | poll {m : Machine} : Reachable m → Reachable m.pollKeypad
  | advance {m : Machine} (amount : UInt16) : Reachable m → Reachable (m.advance amount)
  | halt {m : Machine} (f : Option Fault) : Reachable m → Reachable (m.halt f).value

theorem Reachable.actAll (h : Reachable m) (actions : List Action) :
    Reachable (m.actAll actions) := by
  induction actions generalizing m with
  | nil => exact h
  | cons a rest ih => exact ih (h.act a)

/-- What every operation keeps: the status has a name and the stack is clean. -/
structure Orderly (m : Machine) : Prop where
  named : m.status.name?.isSome = true
  stack : m.stack.Clean

theorem Orderly.room (h : m.Orderly) : m.stack.pointer ≤ stackSize :=
  h.stack.room

theorem performOn_orderly {i : Instruction} (h : m.Orderly) (hi : m.performOn bus i = .ok next) :
    next.Orderly := by
  rcases performOn_cases hi with ⟨x, _, rfl⟩ | ⟨_, _, rfl⟩ | ⟨target, _, room, rfl⟩ | hs
  · exact ⟨rfl, h.stack⟩
  · exact ⟨h.named, h.stack.pop⟩
  · exact ⟨h.named, h.stack.push room m.pc⟩
  · exact ⟨hs.status ▸ h.named, hs.stack ▸ h.stack⟩

theorem Orderly.halt (h : m.Orderly) (f : Option Fault) : (m.halt f).value.Orderly :=
  ⟨rfl, h.stack⟩

theorem Orderly.poll (h : m.Orderly) : m.pollKeypad.Orderly := by
  unfold pollKeypad
  split
  · exact ⟨rfl, h.stack⟩
  · exact h

theorem Orderly.cycle (h : m.Orderly) : m.cycle.value.Orderly := by
  cases turnOn 0 m h.named with
  | rest _ result =>
    rw [Machine.cycle, result]
    exact ⟨h.named, h.stack⟩
  | poll _ _ _ result =>
    rw [Machine.cycle, result]
    have hf : (m.fetchedOn 0).Orderly := ⟨h.named, h.stack⟩
    exact ⟨hf.poll.named, hf.poll.stack⟩
  | lost _ _ _ result =>
    rw [Machine.cycle, result]
    exact ⟨rfl, h.stack⟩
  | fault f _ _ _ result =>
    rw [Machine.cycle, result]
    exact ⟨rfl, h.stack⟩
  | complete next _ _ met result =>
    rw [Machine.cycle, result]
    have hf : (m.fetchedOn 0).Orderly := ⟨h.named, h.stack⟩
    have hn := performOn_orderly hf (attemptOn_inside met).2
    exact ⟨hn.named, hn.stack⟩

theorem Orderly.cycles (h : m.Orderly) (n : Nat) : (m.cycles n).value.Orderly := by
  induction n generalizing m with
  | zero => exact h
  | succ n ih =>
    rw [cycles_succ]
    exact ih h.cycle

theorem Orderly.act (h : m.Orderly) (a : Action) : (m.act a).Orderly := by
  cases a with
  | cycle => exact h.cycle
  | restart program => exact ⟨rfl, .empty⟩
  | _ => exact ⟨h.named, h.stack⟩

theorem Orderly.execute (h : m.Orderly) (w : UInt16) : (m.execute w).value.Orderly := by
  have hr : ({ m with opcode := w } : Machine).Orderly := ⟨h.named, h.stack⟩
  simp only [Machine.execute, executeOn]
  cases met : ({ m with opcode := w } : Machine).performOn 0 (.ofWord w) with
  | error f => exact hr.halt _
  | ok next => exact performOn_orderly hr met

theorem Orderly.fetch (h : m.Orderly) : m.fetch.value.Orderly := by
  by_cases outside : memorySize ≤ m.pc.toNat + 1
  · rw [Machine.fetch, fetchOn_outside outside]
    exact ⟨rfl, h.stack⟩
  · rw [Machine.fetch, fetchOn_inside (Nat.lt_of_not_le outside)]
    exact ⟨h.named, h.stack⟩

theorem Reachable.orderly (h : Reachable m) : m.Orderly := by
  induction h with
  | powerOn random => exact ⟨rfl, .empty⟩
  | act a _ ih => exact ih.act a
  | load program _ ih => exact ⟨ih.named, ih.stack⟩
  | reset _ _ => exact ⟨rfl, .empty⟩
  | execute w _ ih => exact ih.execute w
  | fetch _ ih => exact ih.fetch
  | tick _ ih => exact ⟨ih.named, ih.stack⟩
  | poll _ ih => exact ih.poll
  | advance amount _ ih => exact ⟨ih.named, ih.stack⟩
  | halt f _ ih => exact ih.halt f

end Machine

end Chip8
