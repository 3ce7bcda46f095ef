import Chip8.Disassembly
import Chip8.Machine.Control
import Chip8.Machine.Cycle
import Chip8.Progress
import Chip8.Text.Quoted

namespace Chip8

structure Config where
  cyclesPerFrame : Int
  seed : Int
  strictLoad : Bool
  deriving DecidableEq, Repr

namespace Config

/-- Ten cycles a frame, seed 0, and oversized programs are cut. -/
def standard : Config :=
  ⟨10, 0, false⟩

end Config

inductive ConfigError where
  | cyclesPerFrame (given : Int)
  | seed (given : Int)
  deriving DecidableEq, Repr

def ConfigError.message : ConfigError → String
  | .cyclesPerFrame given => s!"cycles_per_frame must be positive, got {given}"
  | .seed given => s!"seed {given} is too large"

inductive FileError where
  | nulInName
  | missing
  | notFolder
  | isFolder
  | nameTooLong
  deriving DecidableEq, Repr

namespace FileError

/-- The number and the words of an error, if it is one of the file system. -/
def words? : FileError → Option (Nat × String)
  | nulInName => none
  | missing => some (2, "No such file or directory")
  | notFolder => some (20, "Not a directory")
  | isFolder => some (21, "Is a directory")
  | nameTooLong => some (36, "File name too long")

def message (e : FileError) (name : String) : String :=
  match e.words? with
  | some (number, words) =>
    let quoted := Quoted.quote name
    s!"[Errno {number}] {words}: {quoted}"
  | none => "embedded null byte"

end FileError

structure Session where
  cyclesPerFrame : Nat
  strictLoad : Bool
  machine : Machine
  program : Option (List UInt8)
  assembly : Assembly
  deriving DecidableEq

/-- Something that a host notices while a request is handled. -/
inductive Event where
  | report (report : Report)
  | loaded (size : Nat)
  | reset
  | beep
  | bar (call : Progress.Call)
  deriving DecidableEq, Repr

inductive Failure where
  | halted (halt : Halt)
  | programTooLarge (size : Nat)
  | badKey (error : KeyError)
  | notRead (name : String) (error : FileError)
  deriving DecidableEq, Repr

inductive Reply where
  | done
  | redraw (needed : Bool)
  deriving DecidableEq, Repr

structure Response where
  session : Session
  events : List Event
  outcome : Except Failure Reply

namespace Session

/-- Opens a session. The cycles of a frame are checked before the seed. -/
def create (config : Config) : Except ConfigError Session :=
  if config.cyclesPerFrame < 1 then .error (.cyclesPerFrame config.cyclesPerFrame)
  else match Random.Key.ofSeed? config.seed with
    | none => .error (.seed config.seed)
    | some key => .ok
      { cyclesPerFrame := config.cyclesPerFrame.toNat
        strictLoad := config.strictLoad
        machine := .powerOn key
        program := none
        assembly := .empty }

def isLoaded (s : Session) : Bool :=
  s.program.isSome

def isPaused (s : Session) : Bool :=
  s.machine.runMode != .running

def answer (s : Session) (outcome : Except Failure Reply) : Response :=
  ⟨s, [], outcome⟩

def change (s : Session) (f : Machine → Machine) : Response :=
  { s with machine := f s.machine }.answer (.ok .done)

/-- Loads a program, after a reset if one is loaded. -/
def load (s : Session) (program : List UInt8) : Response :=
  if s.strictLoad && programCapacity < program.length then
    s.answer (.error (.programTooLarge program.length))
  else
    let start := if s.isLoaded then s.machine.reset else s.machine
    let loaded := start.load program
    { session :=
        { s with
          machine := loaded.value
          program := some program
          assembly := .ofMemory loaded.value.memory }
      events := loaded.trace.map .report ++ [.loaded program.length]
      outcome := .ok .done }

def loadFile (s : Session) (name : String) : Except FileError (List UInt8) → Response
  | .ok program => s.load program
  | .error e => s.answer (.error (.notRead name e))

/-- Goes back to power-on. The program is loaded again or forgotten. -/
def reset (s : Session) (reload : Bool) : Response :=
  let machine := s.machine.reset
  if reload then
    let booted := match s.program with
      | some program => machine.load program
      | none => .silent machine
    { session := { s with machine := booted.value }
      events := booted.trace.map .report ++ [.reset]
      outcome := .ok .done }
  else
    { session := { s with machine := machine, program := none, assembly := .empty }
      events := [.reset]
      outcome := .ok .done }

/-- The notice due for a machine that has a fault, if it had none before. -/
def haltOf (before after : Machine) : Option Halt :=
  if before.fault.isNone && after.fault.isSome then
    some ⟨after.fault, after.pc.toNat, after.opcode.toNat⟩
  else none

/-- Takes over a machine that has run: hands its beeps to the host and tells of a new fault. -/
def commit (s : Session) (ran : Traced Event Machine) (reply : Reply) : Response where
  session := { s with machine := ran.value.clearBeeps }
  events := ran.trace ++ List.replicate ran.value.beeps.toNat .beep
  outcome := match haltOf s.machine ran.value with
    | some halt => .error (.halted halt)
    | none => .ok reply

def runCycle (s : Session) : Response :=
  if s.isLoaded then s.commit (s.machine.cycle.relabel .report) .done
  else s.answer (.ok .done)

def runFrame (s : Session) : Response :=
  if s.isLoaded then
    let ran := (s.machine.cycles s.cyclesPerFrame).relabel .report
    s.commit ran (.redraw ran.value.needsRedraw)
  else s.answer (.ok (.redraw false))

def bar (cycles : Int) : Progress.Bar :=
  let count := Grouped.ofInt cycles
  .ofRun cycles.toNat none (some s!"Running {count} cycles")

def ran (s : Session) (cycles : Int) (progress : Bool) : Traced Event Machine :=
  if progress then
    ((bar cycles).run (fun _ => Machine.cycle) s.machine).relabel (Sum.elim .bar .report)
  else (s.machine.cycles cycles.toNat).relabel .report

/-- A negative number of cycles runs none. Numbers are not bounded here, whatever a compiled loop
could count. -/
def run (s : Session) (cycles : Int) (progress : Bool) : Response :=
  if s.isLoaded then s.commit (s.ran cycles progress) .done
  else s.answer (.ok .done)

def latch (s : Session) (number : Int) (f : Machine → Nibble → Machine) : Response :=
  match Keypad.key number with
  | .ok key => s.change (f · key)
  | .error e => s.answer (.error (.badKey e))

/-- Answers whether the display is to be drawn, and takes that as done. -/
def consumeRedraw (s : Session) : Response :=
  { s with machine := s.machine.clearRedraw }.answer (.ok (.redraw s.machine.needsRedraw))

def listing (s : Session) (window : Int) : List String :=
  Listing.lines ⟨s.assembly.text?, s.machine.pc.toNat, window⟩

end Session

end Chip8
