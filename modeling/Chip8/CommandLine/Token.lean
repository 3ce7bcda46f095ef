import Chip8.Text.Integer
import Chip8.Text.Quoted

namespace Chip8.CommandLine

inductive Flag where
  | help | scale | cyclesPerFrame | fps | colorScheme | seed | strict | headless
  deriving DecidableEq, Repr

namespace Flag

def all : List Flag :=
  [help, scale, cyclesPerFrame, fps, colorScheme, seed, strict, headless]

def name : Flag → String
  | help => "--help"
  | scale => "--scale"
  | cyclesPerFrame => "--cycles-per-frame"
  | fps => "--fps"
  | colorScheme => "--color-scheme"
  | seed => "--seed"
  | strict => "--strict"
  | headless => "--headless"

def shown : Flag → String
  | help => "-h/--help"
  | f => f.name

def takesValue : Flag → Bool
  | help | strict => false
  | _ => true

end Flag

inductive UsageError where
  | ambiguous (given : String) (candidates : List Flag)
  | missingValue (flag : Flag)
  | notInteger (flag : Flag) (given : String)
  | ignoredValue (flag : Flag) (given : String)
  | missingRom
  | unrecognized (words : List String)
  deriving DecidableEq, Repr

def UsageError.message : UsageError → String
  | ambiguous given candidates =>
    let names := ", ".intercalate (candidates.map Flag.name)
    s!"ambiguous option: {given} could match {names}"
  | missingValue flag => s!"argument {flag.shown}: expected one argument"
  | notInteger flag given =>
    let quoted := Quoted.quote given
    s!"argument {flag.shown}: invalid int value: {quoted}"
  | ignoredValue flag given =>
    let quoted := Quoted.quote given
    s!"argument {flag.shown}: ignored explicit argument {quoted}"
  | missingRom => "the following arguments are required: rom"
  | unrecognized words =>
    let joined := " ".intercalate words
    s!"unrecognized arguments: {joined}"

/-- A word of the command line. `letters` are those that stand after `-h` in one word. -/
inductive Token where
  | word (text : String)
  | option (flag : Flag) (value : Option String)
  | letters (text : String)
  | strange (text : String)
  | separator
  deriving DecidableEq, Repr

namespace Token

def splitValue (text : List Char) : List Char × Option (List Char) :=
  match text.dropWhile (· != '=') with
  | [] => (text, none)
  | _ :: value => (text.takeWhile (· != '='), some value)

/-- Digits of any script, at least one. -/
def isDigits (text : List Char) : Bool :=
  !text.isEmpty && text.all fun c => (Integer.digit? c).isSome

/-- Whether what follows a dash makes a negative number: digits, or a point with digits after it
and perhaps before it. A line end may follow. -/
def isUnsigned (text : List Char) : Bool :=
  let text := if text.getLast? = some '\n' then text.dropLast else text
  match text.dropWhile (· != '.') with
  | [] => isDigits text
  | _ :: places =>
    let whole := text.takeWhile (· != '.')
    (whole.isEmpty || isDigits whole) && isDigits places

/-- A dashed word that names no option. -/
def unnamed (text : String) (afterDash : List Char) : Token :=
  if isUnsigned afterDash || text.toList.contains ' ' then word text else strange text

/-- The options whose names begin with a text. -/
def candidates (beginning : List Char) : List Flag :=
  Flag.all.filter fun f => beginning.isPrefixOf f.name.toList

def ofLong (text : String) : Except UsageError Token :=
  let (name, value) := splitValue text.toList
  let value := value.map String.ofList
  match Flag.all.find? fun f => f.name.toList == name with
  | some flag => .ok (option flag value)
  | none =>
    match candidates name with
    | [flag] => .ok (option flag value)
    | [] => .ok (unnamed text (text.toList.drop 1))
    | several => .error (.ambiguous text several)

/-- Tells what a word is, before any `--`. -/
def ofWord (text : String) : Except UsageError Token :=
  match text.toList with
  | '-' :: '-' :: _ => ofLong text
  | ['-', 'h'] => .ok (option .help none)
  | '-' :: 'h' :: '=' :: rest => .ok (letters (String.ofList rest))
  | '-' :: 'h' :: rest => .ok (letters (String.ofList rest))
  | '-' :: c :: rest => .ok (unnamed text (c :: rest))
  | _ => .ok (word text)

/-- Tells the words of a command line apart, the leftmost first. -/
def ofWords : List String → Except UsageError (List Token)
  | [] => .ok []
  | text :: rest =>
    if text = "--" then .ok (separator :: rest.map word)
    else do
      let token ← ofWord text
      let tokens ← ofWords rest
      return token :: tokens

end Token

end Chip8.CommandLine
