import Chip8.Session.Request
import Chip8.Window.Draw

namespace Chip8.Window

inductive Key where
  | character (c : Char)
  | escape
  | tab
  | backspace
  | other
  deriving DecidableEq, Repr

inductive Input where
  | down (key : Key)
  | up (key : Key)
  | quit
  | other
  deriving DecidableEq, Repr

/-- The keypad on the left of a keyboard: which key stands for which. -/
def keyMap : List (Char × Nat) :=
  [('1', 0x1), ('2', 0x2), ('3', 0x3), ('4', 0xC),
    ('q', 0x4), ('w', 0x5), ('e', 0x6), ('r', 0xD),
    ('a', 0x7), ('s', 0x8), ('d', 0x9), ('f', 0xE),
    ('z', 0xA), ('x', 0x0), ('c', 0xB), ('v', 0xF)]

inductive Output where
  | draw (call : Draw)
  | log (entry : Log.Entry)
  | line (text : String)
  | bar (call : Progress.Call)
  deriving DecidableEq

def Output.ofEvent (e : Event) : Output :=
  match e with
  | .report r => .log r.entry
  | .loaded size => .log (Event.loadedEntry size)
  | .reset => .log Event.resetEntry
  | .beep => .log ⟨.info, "Beep"⟩
  | .bar call => .bar call

structure View where
  scale : Nat
  fps : Option Int
  palette : Picture.Palette
  deriving DecidableEq, Repr

end Chip8.Window

namespace Chip8

structure Window where
  session : Session
  debugging : Bool
  closing : Bool
  deriving DecidableEq

namespace Window

/-- Asks the session, and shows what it tells. A failed request tells nothing here. -/
def ask (w : Window) (request : Request) : Traced Output Window :=
  let response := w.session.handle request
  ⟨{ w with session := response.session }, response.events.map .ofEvent⟩

def togglePause (w : Window) : Traced Output Window :=
  if w.session.isPaused then
    let resumed := w.ask .resume
    ⟨resumed.value, resumed.trace ++ [.log ⟨.info, "Resumed"⟩]⟩
  else
    let paused := w.ask .pause
    ⟨paused.value, paused.trace ++ [.log ⟨.info, "Paused - P to resume, N to step"⟩]⟩

def press (w : Window) : Key → Traced Output Window
  | .escape => .silent { w with closing := true }
  | .tab => .silent { w with debugging := !w.debugging }
  | .backspace => w.ask (.reset true)
  | .character 'p' => w.togglePause
  | .character 'n' => w.ask .singleStep
  | .character c =>
    match keyMap.lookup c with
    | some key => w.ask (.keyDown key)
    | none => .silent w
  | .other => .silent w

def release (w : Window) : Key → Traced Output Window
  | .character c =>
    match keyMap.lookup c with
    | some key => w.ask (.keyUp key)
    | none => .silent w
  | _ => .silent w

def input (w : Window) : Input → Traced Output Window
  | .quit => .silent { w with closing := true }
  | .down key => w.press key
  | .up key => w.release key
  | .other => .silent w

def inputs (w : Window) : List Input → Traced Output Window
  | [] => .silent w
  | event :: rest => (w.input event).andThen fun next => next.inputs rest

/-- Runs the cycles of a frame. A fault is shown and the window stays open. -/
def run (w : Window) : Traced Output Window :=
  let response := w.session.handle (if w.session.isPaused then .runCycle else .runFrame)
  let shown := match response.outcome with
    | .error failure => [.log ⟨.error, failure.message ++ " - Backspace to reset"⟩]
    | .ok _ => []
  ⟨{ w with session := response.session }, response.events.map .ofEvent ++ shown⟩

def picture (view : View) (w : Window) : Output :=
  .draw (.screen w.session.machine.display view.scale view.palette)

def registerText (m : Machine) (i : Nibble) : String :=
  let name := Hex.short i.val
  let value := Hex.padded 2 (m.register i).toNat
  s!"V{name}:{value}"

def registerLine (m : Machine) (first : Nat) : String :=
  " ".intercalate ((List.range 4).map fun i => registerText m (Nibble.ofNat (first + i)))

def debugLines (s : Session) : List String :=
  let m := s.machine
  let pc := Hex.address 3 m.pc.toNat
  let index := Hex.address 3 m.index.toNat
  let opcode := Hex.address 4 m.opcode.toNat
  [s!"PC: {pc}  I: {index}  OP: {opcode}", s!"Status: {m.status.name} / {m.runMode.name}"] ++
    [0, 4, 8, 12].map (registerLine m) ++ s.listing Listing.defaultWindow

def debugOverlay (s : Session) : List Output :=
  (overlay { Style.standard with alpha := 100 } (debugLines s) (5, 5)).map .draw

/-- Repaints the display if it is to be drawn or the overlay covers it. -/
def repaint (view : View) (w : Window) : Traced Output Window :=
  let response := w.session.handle .consumeRedraw
  let next := { w with session := response.session }
  let needed := match response.outcome with
    | .ok (.redraw needed) => needed
    | _ => false
  ⟨next, if needed || w.debugging then [next.picture view] else []⟩

def present (view : View) (w : Window) : Traced Output Window :=
  ⟨w, (if w.debugging then debugOverlay w.session else []) ++
    [.draw .flip, .draw (.tick view.fps)]⟩

def frame (view : View) (w : Window) (events : List Input) : Traced Output Window :=
  (((w.inputs events).andThen run).andThen (repaint view)).andThen (present view)

/-- Frames until the window is closed, that one included. When no events are left, the window is
asked to close. -/
def frames (view : View) (w : Window) : List (List Input) → Traced Output Window
  | [] => w.frame view [.quit]
  | events :: rest =>
    (w.frame view events).andThen fun next =>
      if next.closing then .silent next else next.frames view rest

def opened (session : Session) : Window :=
  ⟨session, false, false⟩

/-- A whole life of a window, from the first picture to the last frame. -/
def live (view : View) (session : Session) (script : List (List Input)) :
    Traced Output Window :=
  let first := opened session
  let lived := (Traced.mk first [first.picture view]).andThen fun w => w.frames view script
  ⟨lived.value, lived.trace ++ [.draw .stop]⟩

end Window

end Chip8
