import Chip8.Launch

namespace Chip8

/-- The name of the log, and the variable that sets its level. -/
def logName : String := "chipcore"

def eventOfWord (word : String) : Window.Input :=
  match word.toList with
  | ['+', c] => .down (.character c)
  | ['-', c] => .up (.character c)
  | _ =>
    if word = "tab" then .down .tab
    else if word = "esc" then .down .escape
    else if word = "back" then .down .backspace
    else if word = "quit" then .quit
    else .other

/-- The events of one frame: `+q` for a key that goes down, `-q` for one that goes up, and the names
of the other keys. -/
def eventsOfLine (line : String) : List Window.Input :=
  ((line.trimAscii.toString.splitOn " ").filter (· ≠ "")).map eventOfWord

def textOf (logger : Log.Logger) (now : Float) : Window.Output → Option String
  | .log entry => logger.entry? now entry
  | .line text => some text
  | .draw (.screen display _ _) => some ("\n".intercalate display.text)
  | .draw (.text line _ _) => some line
  | _ => none

def clock : IO Float := do
  return (← IO.monoNanosNow).toFloat / 1000000000

def openLog : IO Log.Logger := do
  let given := (← IO.getEnv "CHIPCORE_LOG_LEVEL").getD "INFO"
  match Log.Logger.level given with
  | .error e => throw (IO.userError e.message)
  | .ok level => return ⟨logName, level, ← (← IO.getStdout).isTty, true, ← clock⟩

def fileErrorOf : IO.Error → FileError
  | .inappropriateType _ 21 _ => .isFolder
  | .inappropriateType .. => .notFolder
  | .invalidArgument .. => .nameTooLong
  | _ => .missing

def readFile (name : String) : IO (Except FileError (List UInt8)) := do
  if name.toList.any (·.toNat = 0) then
    return .error .nulInName
  try
    return .ok (← IO.FS.readBinFile name).toList
  catch e =>
    return .error (fileErrorOf e)

partial def readLines (stdin : IO.FS.Stream) (read : List String) : IO (List String) := do
  let line ← stdin.getLine
  if line.isEmpty then return read.reverse else readLines stdin (line :: read)

def Launch.Abort.text : Launch.Abort → String
  | .command .help => "usage: rom [options]"
  | .command (.usage e) => "error: " ++ e.message
  | .blank flag => s!"argument {flag.shown}: left blank"
  | .fileName given => FileError.nulInName.message given
  | .config e => e.message
  | .picture e => e.message

def Launch.Abort.code : Launch.Abort → UInt32
  | .command .help => 0
  | .command (.usage _) => 2
  | _ => 1

def finish (logger : Log.Logger) (result : Launch.Result) : IO UInt32 := do
  for output in result.shown do
    match textOf logger (← clock) output with
    | some text => IO.println text
    | none => pure ()
  match result.exit with
  | .ok code => return UInt32.ofNat code
  | .error abort =>
    IO.eprintln abort.text
    return abort.code

end Chip8

open Chip8

def main (words : List String) : IO UInt32 := do
  let logger ← openLog
  match CommandLine.parse words with
  | .error stop => finish logger ⟨[], .error (.command stop)⟩
  | .ok settings =>
    let content ← readFile settings.rom
    let lines ← if settings.headless.isSome then pure [] else readLines (← IO.getStdin) []
    let script := lines.map eventsOfLine
    -- A terminal shows text, so that no memory is taken for pictures: what can be counted is there.
    finish logger (Launch.start Demand.countLimit settings (fun _ => content) script)
