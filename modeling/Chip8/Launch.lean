import Chip8.CommandLine.Settings
import Chip8.Window.Loop

namespace Chip8.Launch

/-- Why the program ends without an exit code: among others a setting that was left blank where it
is needed, and a file name that cannot be one. -/
inductive Abort where
  | command (stop : CommandLine.Stop)
  | blank (flag : CommandLine.Flag)
  | fileName (given : String)
  | config (error : ConfigError)
  | picture (error : Picture.PictureError)
  deriving DecidableEq, Repr

structure Result where
  shown : List Window.Output
  exit : Except Abort Nat

namespace Result

def after (shown : List Window.Output) (r : Result) : Result :=
  { r with shown := shown ++ r.shown }

end Result

/-- An error that ends the program with exit code 1. -/
def failed (text : String) : Result :=
  ⟨[.log ⟨.error, text⟩], .ok 1⟩

/-- The summary of a run without a window: the screen, a line on the state, and the listing as one
text. -/
def summary (s : Session) : List Window.Output :=
  let m := s.machine
  let pc := Hex.address 3 m.pc.toNat
  let fault := Fault.name m.fault
  [.line ("\n".intercalate m.display.text),
    .line s!"PC: {pc}  status: {m.status.name}  fault: {fault}",
    .line ("\n".intercalate (s.listing Listing.defaultWindow))]

def headless (s : Session) (cycles : Int) : Result :=
  let response := s.handle (.run cycles true)
  .after (response.events.map .ofEvent) <|
    match response.outcome with
    | .error failure => failed failure.message
    | .ok _ => ⟨summary response.session, .ok 0⟩

/-- What is drawn before the look of the window is checked. -/
def opening (scale : Option Int) : List Window.Output :=
  [.draw .start,
    .draw (.setMode (scale.map (screenWidth * ·)) (scale.map (screenHeight * ·))),
    .draw (.caption "chipcore"), .draw (.font 18)]

/-- The scale of a window whose colours have a number of components. -/
def scaleOf (memory depth : Nat) : Option Int → Except Abort Nat
  | none => .error (.blank .scale)
  | some scale => (Picture.screenScale memory depth scale).mapError .picture

def paletteOf : Option String → Except Abort Picture.Palette
  | none => .error (.blank .colorScheme)
  | some name => (Picture.scheme name).mapError .picture

/-- The look that settings ask for, its palette checked before its scale. -/
def view (memory : Nat) (settings : CommandLine.Settings) : Except Abort Window.View := do
  let palette ← paletteOf settings.colorScheme
  let scale ← scaleOf memory palette.off.length settings.scale
  return ⟨scale, settings.fps, palette⟩

def windowed (memory : Nat) (s : Session) (settings : CommandLine.Settings)
    (script : List (List Window.Input)) : Result :=
  .after (opening settings.scale) <|
    match view memory settings with
    | .error abort => ⟨[], .error abort⟩
    | .ok view => ⟨(Window.live view s script).trace, .ok 0⟩

/-- Opens the session that settings ask for. The cycles of a frame are looked at before the
seed. -/
def session (settings : CommandLine.Settings) : Except Abort Session :=
  match settings.cyclesPerFrame with
  | none => .error (.blank .cyclesPerFrame)
  | some cycles =>
    match Session.create ⟨cycles, settings.seed.getD 0, settings.strict⟩ with
    | .error e => .error (.config e)
    | .ok session => if settings.seed.isNone then .error (.blank .seed) else .ok session

/-- What follows from a program that is not loaded. -/
def refused (name : String) : Failure → Result
  | .notRead _ .nulInName => ⟨[], .error (.fileName name)⟩
  | failure => failed s!"Could not load {name}: {failure.message}"

/-- Runs the program with its settings. There is memory for a number of bytes, and `files` tells
what reading the file of a name leads to. -/
def start (memory : Nat) (settings : CommandLine.Settings)
    (files : String → Except FileError (List UInt8)) (script : List (List Window.Input)) :
    Result :=
  match session settings with
  | .error abort => ⟨[], .error abort⟩
  | .ok session =>
    let response := session.handle (.loadFile settings.rom (files settings.rom))
    .after (response.events.map .ofEvent) <|
      match response.outcome with
      | .error failure => refused settings.rom failure
      | .ok _ =>
        match settings.headless with
        | some (some cycles) => headless response.session cycles
        | some none => ⟨[], .error (.blank .headless)⟩
        | none => windowed memory response.session settings script

def run (memory : Nat) (words : List String)
    (files : String → Except FileError (List UInt8)) (script : List (List Window.Input)) :
    Result :=
  match CommandLine.parse words with
  | .error stop => ⟨[], .error (.command stop)⟩
  | .ok settings => start memory settings files script

end Chip8.Launch
