import Chip8.Text.Hex

namespace Chip8

/-- Why a machine halts. A host may also halt it with a code that has no name. -/
inductive Fault where
  | stackOverflow
  | stackUnderflow
  | addressOutOfRange
  | unnamed (code : Int)
  deriving DecidableEq, Repr

namespace Fault

/-- The fault of a code. Code 0 means that there is none. -/
def ofCode : Int → Option Fault
  | 0 => none
  | 1 => some stackOverflow
  | 2 => some stackUnderflow
  | 3 => some addressOutOfRange
  | code => some (unnamed code)

def code : Option Fault → Int
  | none => 0
  | some stackOverflow => 1
  | some stackUnderflow => 2
  | some addressOutOfRange => 3
  | some (unnamed code) => code

def name? : Option Fault → Option String
  | none => some "none"
  | some stackOverflow => some "stack overflow"
  | some stackUnderflow => some "stack underflow"
  | some addressOutOfRange => some "address out of range"
  | some (unnamed _) => none

/-- What a fault is called where it is told of. -/
def name (fault : Option Fault) : String :=
  (name? fault).getD "unknown fault"

/-- The faults that a machine halts with by itself. -/
def raised : List Fault :=
  [stackOverflow, stackUnderflow, addressOutOfRange]

end Fault

/-- The notice a host gets when a machine halts: the fault, the address of the instruction and the
word fetched there. -/
structure Halt where
  fault : Option Fault
  pc : Int
  opcode : Int
  deriving DecidableEq, Repr

namespace Halt

def message (h : Halt) : String :=
  let pc := Hex.address 3 h.pc
  let opcode := Hex.address 4 h.opcode
  s!"{Fault.name h.fault} at {pc} (opcode {opcode})"

def isRaised (h : Halt) : Bool :=
  h.fault.any Fault.raised.contains

end Halt

end Chip8
