import Chip8.Session.Basic
import Chip8.Log

namespace Chip8

/-- A request to a session. A file is given with what reading it led to. -/
inductive Request where
  | load (program : List UInt8)
  | loadFile (name : String) (content : Except FileError (List UInt8))
  | reset (reload : Bool)
  | runCycle
  | runFrame
  | run (cycles : Int) (progress : Bool)
  | pause
  | resume
  | singleStep
  | keyDown (number : Int)
  | keyUp (number : Int)
  | consumeRedraw

namespace Session

def handle (s : Session) : Request → Response
  | .load program => s.load program
  | .loadFile name content => s.loadFile name content
  | .reset reload => s.reset reload
  | .runCycle => s.runCycle
  | .runFrame => s.runFrame
  | .run cycles progress => s.run cycles progress
  | .pause => s.change Machine.pause
  | .resume => s.change Machine.resume
  | .singleStep => s.change Machine.singleStep
  | .keyDown number => s.latch number Machine.keyDown
  | .keyUp number => s.latch number Machine.keyUp
  | .consumeRedraw => s.consumeRedraw

/-- Handles requests one after another, up to the first that fails. -/
def handleUntilFailure (s : Session) : List Request → Response
  | [] => s.answer (.ok .done)
  | request :: rest =>
    let response := s.handle request
    match response.outcome with
    | .error _ => response
    | .ok _ =>
      let later := response.session.handleUntilFailure rest
      { later with events := response.events ++ later.events }

end Session

namespace Failure

def message : Failure → String
  | halted halt => halt.message
  | programTooLarge size => s!"Program is {size} bytes, at most {programCapacity} fit"
  | badKey error => error.message
  | notRead name error => error.message name

end Failure

def Report.entry (r : Report) : Log.Entry :=
  ⟨if r.isError then .error else .warning, r.message⟩

namespace Event

def loadedEntry (size : Nat) : Log.Entry :=
  ⟨.info, s!"Loaded {size} byte program"⟩

def resetEntry : Log.Entry :=
  ⟨.info, "Reset"⟩

/-- The log entry of what a session says for itself. -/
def notice? : Event → Option Log.Entry
  | loaded size => some (loadedEntry size)
  | reset => some resetEntry
  | _ => none

def report? : Event → Option Log.Entry
  | report r => some r.entry
  | _ => none

def bar? : Event → Option Progress.Call
  | bar call => some call
  | _ => none

end Event

end Chip8
