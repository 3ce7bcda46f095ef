import Chip8.Text.Printable

namespace Chip8.Quoted

def single : Char := Char.ofNat 0x27

def double : Char := Char.ofNat 0x22

def backslash : Char := Char.ofNat 0x5C

/-- The mark that encloses a text. -/
def mark (text : List Char) : Char :=
  if text.contains single && !text.contains double then double else single

/-- A code point in lower-case hexadecimal digits after a backslash and a letter. -/
def numeric (letter : Char) (width code : Nat) : List Char :=
  backslash :: letter :: (Nat.toDigits 16 code).leftpad width '0'

def escape (enclosing c : Char) : List Char :=
  let code := c.toNat
  if c = enclosing || c = backslash then [backslash, c]
  else if c = '\t' then [backslash, 't']
  else if c = '\n' then [backslash, 'n']
  else if c = '\r' then [backslash, 'r']
  else if code < 0x20 || code = 0x7F then numeric 'x' 2 code
  else if code < 0x7F || Printable.isShown c then [c]
  else if code ≤ 0xFF then numeric 'x' 2 code
  else if code ≤ 0xFFFF then numeric 'u' 4 code
  else numeric 'U' 8 code

def quote (text : String) : String :=
  let enclosing := mark text.toList
  String.ofList (enclosing :: text.toList.flatMap (escape enclosing) ++ [enclosing])

end Chip8.Quoted
