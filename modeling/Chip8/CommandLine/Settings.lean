import Chip8.CommandLine.Token

namespace Chip8.CommandLine

/-- What the program is to do. Options that take a value are `none` where they are left blank;
`headless` is `none` where it is not given and `some none` where it is left blank. -/
structure Settings where
  rom : String
  scale : Option Int
  cyclesPerFrame : Option Int
  fps : Option Int
  colorScheme : Option String
  seed : Option Int
  strict : Bool
  headless : Option (Option Int)
  deriving DecidableEq, Repr

def Settings.standard (rom : String) : Settings where
  rom := rom
  scale := some 8
  cyclesPerFrame := some 10
  fps := some 60
  colorScheme := some "classic"
  seed := some 0
  strict := false
  headless := none

inductive Stop where
  | help
  | usage (error : UsageError)
  deriving DecidableEq, Repr

/-- Settings under construction: the program file if it was named, and the words left over. -/
structure Draft where
  settings : Settings
  rom : Option String
  leftOver : List String
  deriving DecidableEq, Repr

namespace Draft

def start : Draft :=
  ⟨.standard "", none, []⟩

/-- Keeps a word that has no place. -/
def leave (d : Draft) (text : String) : Draft :=
  { d with leftOver := d.leftOver ++ [text] }

/-- Sets an option that takes a number, or leaves it blank. -/
def setNumber (d : Draft) (flag : Flag) (value : Option Int) : Draft :=
  let s := d.settings
  { d with settings := match flag with
    | .scale => { s with scale := value }
    | .cyclesPerFrame => { s with cyclesPerFrame := value }
    | .fps => { s with fps := value }
    | .seed => { s with seed := value }
    | .headless => { s with headless := some value }
    | _ => s }

def setText (d : Draft) (value : Option String) : Draft :=
  { d with settings := { d.settings with colorScheme := value } }

/-- Sets an option to a value, or leaves it blank if the value is the separator. -/
def set (d : Draft) (flag : Flag) (text : String) : Except Stop Draft :=
  match flag with
  | .help | .strict => .error (.usage (.ignoredValue flag text))
  | .colorScheme => .ok (d.setText (if text = "--" then none else some text))
  | _ =>
    if text = "--" then .ok (d.setNumber flag none)
    else match Integer.parse? text with
      | none => .error (.usage (.notInteger flag text))
      | some value => .ok (d.setNumber flag (some value))

/-- Sets an option that takes no value. -/
def mark (d : Draft) : Flag → Except Stop Draft
  | .help => .error .help
  | .strict => .ok { d with settings := { d.settings with strict := true } }
  | flag => .error (.usage (.missingValue flag))

/-- What the letters after `-h` lead to. Each of them asks for help once more; the first that does
not is refused, with all that follow it. -/
def spell : List Char → Stop
  | ['h'] => .help
  | 'h' :: rest => spell rest
  | rest => .usage (.ignoredValue .help (String.ofList rest))

/-- Reads tokens from the left. A separator is dropped if the program file is still to come, or if
it stands right after it, as `named` tells; elsewhere it is a word without a place. -/
def read : List Token → Bool → Draft → Except Stop Draft
  | [], _, d => .ok d
  | .separator :: rest, named, d =>
    if named || d.rom.isNone then read rest false d else read rest false (d.leave "--")
  | .word text :: rest, _, d =>
    if d.rom.isNone then read rest true { d with rom := some text }
    else read rest false (d.leave text)
  | .strange text :: rest, _, d => read rest false (d.leave text)
  | .letters text :: _, _, _ => .error (spell text.toList)
  | .option flag (some text) :: rest, _, d =>
    match d.set flag text with
    | .ok next => read rest false next
    | .error stop => .error stop
  | .option flag none :: .word text :: rest, _, d =>
    if flag.takesValue then
      match d.set flag text with
      | .ok next => read rest false next
      | .error stop => .error stop
    else
      match d.mark flag with
      | .ok next => read (.word text :: rest) false next
      | .error stop => .error stop
  | .option flag none :: rest, _, d =>
    match d.mark flag with
    | .ok next => read rest false next
    | .error stop => .error stop

/-- The settings, if the program file was named and no word is left over. -/
def finish (d : Draft) : Except Stop Settings :=
  match d.rom with
  | none => .error (.usage .missingRom)
  | some rom =>
    if d.leftOver.isEmpty then .ok { d.settings with rom := rom }
    else .error (.usage (.unrecognized d.leftOver))

end Draft

/-- The first plain word names the program file. The words that have no place are refused together,
after everything else has been read. -/
def parse (words : List String) : Except Stop Settings :=
  match Token.ofWords words with
  | .error e => .error (.usage e)
  | .ok tokens =>
    match Draft.read tokens false .start with
    | .error stop => .error stop
    | .ok draft => draft.finish

end Chip8.CommandLine
