import Chip8.Machine.Perform

namespace Chip8.Machine

def wordOn (bus : UInt8) (m : Machine) : UInt16 :=
  m.memory.word bus m.pc.toNat

/-- Records the word at the program counter. The machine halts if the word is not wholly in
memory. -/
def fetchOn (bus : UInt8) (m : Machine) : Traced Report Machine :=
  let fetched := { m with opcode := m.wordOn bus }
  fetched.settle [] <|
    if memorySize ≤ m.pc.toNat + 1 then .error .addressOutOfRange else .ok fetched

/-- Records the word at the program counter. -/
def fetch (m : Machine) : Traced Report Machine :=
  m.fetchOn 0

/-- Counts both timers down and counts a beep when the sound timer runs out. -/
def tick (m : Machine) : Machine :=
  { m with
    delayTimer := if 0 < m.delayTimer then m.delayTimer - 1 else m.delayTimer
    soundTimer := if 0 < m.soundTimer then m.soundTimer - 1 else m.soundTimer
    beeps := if m.soundTimer = 1 ∧ m.beeps < 255 then m.beeps + 1 else m.beeps }

/-- Ends a key wait with the lowest pressed key, if one is pressed. -/
def pollKeypad (m : Machine) : Machine :=
  match m.keypad.lowest? with
  | some key =>
    { m with
      registers := m.registers.setIfInBounds m.keyTarget.toNat (UInt8.ofNat key)
      status := .running }.advance 2
  | none => m

def isActive (m : Machine) : Bool :=
  m.runMode != .paused && m.status != .halted

def tickUnlessHalted (m : Machine) : Machine :=
  if m.status = .halted then m else m.tick

/-- What a machine does once its word is fetched, by the named status closest to its own. -/
def proceedOn (bus : UInt8) (m : Machine) : Traced Report Machine :=
  match m.status.nearest with
  | .running => (m.executeOn bus m.opcode).map tickUnlessHalted
  | .awaitingKey => .silent m.pollKeypad
  | _ => .silent m

def endStep (m : Machine) : Machine :=
  { m with runMode := if m.runMode = .stepPending then .paused else m.runMode }

/-- One cycle, with memory that reads as `bus` past its end. A pending single step is used up even
by a cycle that finds the machine halted. -/
def cycleOn (bus : UInt8) (m : Machine) : Traced Report Machine :=
  let done := if m.isActive then (m.fetchOn bus).andThen (proceedOn bus) else .silent m
  done.map endStep

def cycle (m : Machine) : Traced Report Machine :=
  m.cycleOn 0

/-- The number of cycles has no bound of its own: how long a compiled loop may be is for what
compiles it to say. -/
def cycles (m : Machine) (n : Nat) : Traced Report Machine :=
  Traced.iterate (fun _ => cycle) n 0 m

end Chip8.Machine
