import Chip8.Text.Fixed

namespace Chip8.Log

inductive Level where
  | debug | info | warning | error | critical
  deriving DecidableEq, Repr

/-- A character in upper case, as far as it can be part of a level's name: besides the ASCII
letters these are the dotless i and the long s. -/
def foldCase (c : Char) : Char :=
  if c.toNat = 0x131 then 'I' else if c.toNat = 0x17F then 'S' else c.toUpper

/-- A name in upper case, for comparison with names of levels. -/
def folded (name : String) : String :=
  name.map foldCase

namespace Level

def all : List Level :=
  [debug, info, warning, error, critical]

def name : Level → String
  | debug => "DEBUG"
  | info => "INFO"
  | warning => "WARNING"
  | error => "ERROR"
  | critical => "CRITICAL"

def ofName? (given : String) : Option Level :=
  all.find? fun l => l.name == folded given

def rank : Level → Nat
  | debug => 0
  | info => 1
  | warning => 2
  | error => 3
  | critical => 4

def colour : Level → String
  | debug => "\x1b[36m"
  | info => "\x1b[32m"
  | warning => "\x1b[33m"
  | error => "\x1b[31m"
  | critical => "\x1b[35m"

end Level

/-- A level and a message, before it is known who writes it and how. -/
structure Entry where
  level : Level
  message : String
  deriving DecidableEq, Repr

structure LevelError where
  given : String
  deriving DecidableEq, Repr

/-- A name between single quotes, whatever characters it holds. -/
def enclosed (name : String) : String :=
  "'" ++ name ++ "'"

def listed (names : List String) : String :=
  "[" ++ ", ".intercalate (names.map enclosed) ++ "]"

def LevelError.message (e : LevelError) : String :=
  let given := enclosed e.given
  let known := listed (Level.all.map Level.name)
  s!"Unknown log level {given}. Available: {known}"

structure Logger where
  name : String
  threshold : Level
  colours : Bool
  timestamps : Bool
  start : Float

namespace Logger

def resetColour : String := "\x1b[0m"

/-- The terminal colour for a level name. The name of the reset code counts as a colour too. -/
def colourOf (level : String) : String :=
  if folded level = "RESET" then resetColour
  else ((Level.ofName? level).map Level.colour).getD ""

def level (given : String) : Except LevelError Level :=
  match Level.ofName? given with
  | some l => .ok l
  | none => .error ⟨given⟩

/-- A name that is none of the levels counts as information. -/
def admits (l : Logger) (level : String) : Bool :=
  l.threshold.rank ≤ ((Level.ofName? level).getD .info).rank

def text (l : Logger) (now : Float) (level message : String) : String :=
  let seconds := Fixed.text 8 (now - l.start)
  let time := if l.timestamps then s!"[{seconds}s]" else ""
  let bare := "[" ++ String.ofList (level.toList.leftpad 8 ' ') ++ "]"
  let shown := if l.colours then colourOf level ++ bare ++ resetColour else bare
  s!"{time}{shown}[{l.name}] {message}"

def line? (l : Logger) (now : Float) (level message : String) : Option String :=
  if l.admits level then some (l.text now level message) else none

def entry? (l : Logger) (now : Float) (e : Entry) : Option String :=
  l.line? now e.level.name e.message

end Logger

end Chip8.Log
