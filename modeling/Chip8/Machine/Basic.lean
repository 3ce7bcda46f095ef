import Chip8.CallStack
import Chip8.Display.Basic
import Chip8.Fault
import Chip8.Font
import Chip8.Keypad
import Chip8.Random

namespace Chip8

abbrev programStart : UInt16 := 0x200

abbrev programCapacity : Nat := 3584

/-- What a machine does in its next cycle. A host may also set a code that has no name. -/
inductive Status where
  | running
  | awaitingKey
  | halted
  | unnamed (code : Int)
  deriving DecidableEq, Repr

namespace Status

def ofCode : Int → Status
  | 0 => running
  | 1 => awaitingKey
  | 2 => halted
  | code => unnamed code

def code : Status → Int
  | running => 0
  | awaitingKey => 1
  | halted => 2
  | unnamed code => code

def name? : Status → Option String
  | running => some "running"
  | awaitingKey => some "awaiting_key"
  | halted => some "halted"
  | unnamed _ => none

def name (s : Status) : String :=
  (name? s).getD "unknown status"

/-- The named status whose code is closest. -/
def nearest : Status → Status
  | unnamed code => if code ≤ 0 then running else if code = 1 then awaitingKey else halted
  | named => named

end Status

/-- Whether cycles run, as a debugger sets it. A host may also set a code that has no name: cycles
run then. -/
inductive RunMode where
  | running
  | paused
  | stepPending
  | unnamed (code : Int)
  deriving DecidableEq, Repr

namespace RunMode

def ofCode : Int → RunMode
  | 0 => running
  | 1 => paused
  | 2 => stepPending
  | code => unnamed code

def code : RunMode → Int
  | running => 0
  | paused => 1
  | stepPending => 2
  | unnamed code => code

def name? : RunMode → Option String
  | running => some "running"
  | paused => some "paused"
  | stepPending => some "single_step_pending"
  | unnamed _ => none

def name (r : RunMode) : String :=
  (name? r).getD "unknown run mode"

end RunMode

abbrev Registers := Vector UInt8 16

def flagRegister : Nibble := Nibble.ofNat 15

/-- A machine between two cycles. `opcode` is the word fetched last, `keyTarget` the register that
a pending key wait fills, `needsRedraw` is set by the drawing instructions until a host clears it,
and `beeps` counts how often the sound timer ran out since a host cleared it. -/
structure Machine where
  random : Random.Key
  memory : Memory
  pc : UInt16
  index : UInt16
  registers : Registers
  stack : CallStack
  display : Display
  delayTimer : UInt8
  soundTimer : UInt8
  keypad : Keypad
  opcode : UInt16
  status : Status
  keyTarget : UInt8
  runMode : RunMode
  fault : Option Fault
  needsRedraw : Bool
  beeps : UInt8
  deriving DecidableEq

namespace Machine

def powerOn (random : Random.Key) : Machine where
  random := random
  memory := Font.memory
  pc := programStart
  index := 0
  registers := Vector.replicate 16 0
  stack := .empty
  display := .blank
  delayTimer := 0
  soundTimer := 0
  keypad := .released
  opcode := 0
  status := .running
  keyTarget := 0
  runMode := .running
  fault := none
  needsRedraw := false
  beeps := 0

/-- Back to power-on. The random stream goes on where it is. -/
def reset (m : Machine) : Machine :=
  powerOn m.random

def advance (m : Machine) (amount : UInt16) : Machine :=
  { m with pc := m.pc + amount }

def register (m : Machine) (x : Nibble) : UInt8 :=
  m.registers.get x

def setRegister (m : Machine) (x : Nibble) (byte : UInt8) : Machine :=
  { m with registers := m.registers.setIfInBounds x.val byte }

end Machine

end Chip8
