import Chip8.Instruction.Basic
import Chip8.Machine.Report
import Chip8.Traced

namespace Chip8.Machine

/-- Stops the machine with a fault and reports it. Nothing else changes. -/
def halt (m : Machine) (fault : Option Fault) : Traced Report Machine :=
  ⟨{ m with status := .halted, fault := fault }, [.halted fault m.pc]⟩

/-- Takes the machine that an attempt led to, or halts this one with the fault it met. -/
def settle (m : Machine) (reports : List Report) : Except Fault Machine → Traced Report Machine
  | .ok next => ⟨next, reports⟩
  | .error fault => m.halt (some fault)

def skipIf (m : Machine) (condition : Bool) : Machine :=
  m.advance (if condition then 4 else 2)

/-- Carries out an arithmetic instruction. The flag is written first, so a result in the flag
register stays. -/
def compute (m : Machine) (op : Arithmetic) (x y : Nibble) : Machine :=
  let (result, flag) := op.apply (m.register x) (m.register y)
  let flagged := match flag with
    | some bit => m.setRegister flagRegister bit
    | none => m
  flagged.setRegister x result

/-- Sixteen bytes are read whatever the height. Here and below, `On` marks what reads memory with
`bus` past its end. -/
def spriteOn (bus : UInt8) (m : Machine) : Sprite :=
  Vector.ofFn fun row => m.memory.read bus (m.index.toNat + row)

/-- Draws a sprite at two registers; the flag tells of a collision. -/
def drawOn (bus : UInt8) (m : Machine) (x y height : Nibble) : Machine :=
  let (display, collision) := m.display.blit (m.spriteOn bus) height.val
    (m.register x).toNat (m.register y).toNat
  { m with
    display := display
    registers := m.registers.setIfInBounds flagRegister.val (Arithmetic.flag collision)
    needsRedraw := true }

def decimalDigits (byte : UInt8) : List UInt8 :=
  [byte / 100, byte / 10 % 10, byte % 10]

/-- The registers with the first ones, up to the given one, read from memory. -/
def loadedOn (bus : UInt8) (m : Machine) (x : Nibble) : Registers :=
  Vector.ofFn fun i =>
    if i ≤ x then m.memory.read bus (m.index.toNat + i) else m.register i

/-- Whether the key of a register's low nibble is pressed. -/
def keyPressed (m : Machine) (x : Nibble) : Bool :=
  m.keypad.get (Nibble.ofNat (m.register x).toNat)

/-- The machine after an instruction, or the fault that keeps it from being carried out. -/
def performOn (bus : UInt8) (m : Machine) : Instruction → Except Fault Machine
  | .clearScreen => .ok ({ m with display := .blank, needsRedraw := true }.advance 2)
  | .ret =>
    if m.stack.isEmpty then .error .stackUnderflow
    else .ok { m with stack := m.stack.pop, pc := m.stack.top + 2 }
  | .jump target => .ok { m with pc := target }
  | .call target =>
    if m.stack.isFull then .error .stackOverflow
    else .ok { m with stack := m.stack.push m.pc, pc := target }
  | .skipEqual x byte => .ok (m.skipIf (m.register x == byte))
  | .skipNotEqual x byte => .ok (m.skipIf (m.register x != byte))
  | .skipSame x y => .ok (m.skipIf (m.register x == m.register y))
  | .set x byte => .ok ((m.setRegister x byte).advance 2)
  | .addTo x byte => .ok ((m.setRegister x (m.register x + byte)).advance 2)
  | .arithmetic op x y => .ok ((m.compute op x y).advance 2)
  | .skipDifferent x y => .ok (m.skipIf (m.register x != m.register y))
  | .setIndex address => .ok ({ m with index := address }.advance 2)
  | .jumpOffset base => .ok { m with pc := base + (m.register (Nibble.ofNat 0)).toUInt16 }
  | .random x byte =>
    .ok ({ m.setRegister x (m.random.byte &&& byte) with random := m.random.next }.advance 2)
  | .draw x y height =>
    if 0 < height.val && memorySize < m.index.toNat + height.val then .error .addressOutOfRange
    else .ok ((m.drawOn bus x y height).advance 2)
  | .skipPressed x => .ok (m.skipIf (m.keyPressed x))
  | .skipReleased x => .ok (m.skipIf (!m.keyPressed x))
  | .readDelay x => .ok ((m.setRegister x m.delayTimer).advance 2)
  | .awaitKey x =>
    .ok { m with status := .awaitingKey, keyTarget := UInt8.ofNat x, keypad := .released }
  | .setDelay x => .ok ({ m with delayTimer := m.register x }.advance 2)
  | .setSound x => .ok ({ m with soundTimer := m.register x }.advance 2)
  | .addToIndex x => .ok ({ m with index := m.index + (m.register x).toUInt16 }.advance 2)
  | .glyph x => .ok ({ m with index := Font.address (m.register x) }.advance 2)
  | .decimal x =>
    if memorySize < m.index.toNat + 3 then .error .addressOutOfRange
    else
      let memory := m.memory.writeAll m.index.toNat (decimalDigits (m.register x))
      .ok ({ m with memory := memory }.advance 2)
  | .store x =>
    if memorySize ≤ m.index.toNat + x.val then .error .addressOutOfRange
    else
      let memory := m.memory.writeFirst bus m.index.toNat (x.val + 1) m.registers.toList
      .ok ({ m with memory := memory }.advance 2)
  | .load x =>
    if memorySize ≤ m.index.toNat + x.val then .error .addressOutOfRange
    else .ok ({ m with registers := m.loadedOn bus x }.advance 2)
  | .unknown _ => .ok (m.advance 2)

def remarks (m : Machine) : Instruction → List Report
  | .unknown word => [.unknownWord word m.pc]
  | _ => []

/-- Executes a word and records it as the word fetched last. -/
def executeOn (bus : UInt8) (m : Machine) (w : UInt16) : Traced Report Machine :=
  let recorded := { m with opcode := w }
  let instruction := Instruction.ofWord w
  recorded.settle (recorded.remarks instruction) (recorded.performOn bus instruction)

def execute (m : Machine) (w : UInt16) : Traced Report Machine :=
  m.executeOn 0 w

end Chip8.Machine
