import Chip8.Machine.Perform

namespace Chip8.Machine

def pause (m : Machine) : Machine :=
  { m with runMode := .paused }

/-- Lets cycles run freely. A pending single step is forgotten. -/
def resume (m : Machine) : Machine :=
  { m with runMode := .running }

/-- Asks a paused machine for one cycle. A running machine takes no notice. -/
def singleStep (m : Machine) : Machine :=
  { m with runMode := if m.runMode = .paused then .stepPending else m.runMode }

def clearRedraw (m : Machine) : Machine :=
  { m with needsRedraw := false }

def clearBeeps (m : Machine) : Machine :=
  { m with beeps := 0 }

def keyDown (m : Machine) (key : Nibble) : Machine :=
  { m with keypad := m.keypad.latch key true }

def keyUp (m : Machine) (key : Nibble) : Machine :=
  { m with keypad := m.keypad.latch key false }

/-- Executes integers as words, one after another, up to the first that is no word. -/
def executeAll (m : Machine) : List Int → Traced Report Machine × Option Word.RangeError
  | [] => (.silent m, none)
  | i :: rest =>
    match Word.ofInt i with
    | .error e => (.silent m, some e)
    | .ok w =>
      let done := m.execute w
      let (later, error) := done.value.executeAll rest
      (⟨later.value, done.trace ++ later.trace⟩, error)

/-- Moves the program counter by a number of bytes that fits into 32 bits, modulo the size of a
word. -/
def moveBy (m : Machine) (amount : Int) : Except Word.WideError Machine :=
  if Word.fitsSigned32 amount then .ok (m.advance (UInt16.ofInt amount)) else .error ⟨amount⟩

/-- Halts the machine with the fault of a code that fits into 32 bits. -/
def haltWith (m : Machine) (code : Int) : Except Word.WideError (Traced Report Machine) :=
  if Word.fitsSigned32 code then .ok (m.halt (Fault.ofCode code)) else .error ⟨code⟩

/-- Copies a program into memory. Bytes past the end of memory are dropped, with a report. -/
def load (m : Machine) (program : List UInt8) : Traced Report Machine :=
  let memory := m.memory.writeAll programStart.toNat (program.take programCapacity)
  let reports := if programCapacity < program.length then [.truncated program.length] else []
  ⟨{ m with memory := memory }, reports⟩

def boot (random : Random.Key) (program : List UInt8) : Traced Report Machine :=
  (powerOn random).load program

end Chip8.Machine
