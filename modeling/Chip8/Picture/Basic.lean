import Chip8.Display.Basic
import Chip8.Log
import Chip8.Picture.Room

namespace Chip8.Picture

abbrev Colour := List UInt8

structure Palette where
  on : Colour
  off : Colour
  deriving DecidableEq, Repr

def schemes : List (String × Palette) :=
  [("classic", ⟨[0, 255, 0], [0, 0, 0]⟩),
    ("amber", ⟨[255, 176, 0], [0, 0, 0]⟩),
    ("white", ⟨[255, 255, 255], [0, 0, 0]⟩),
    ("blue", ⟨[0, 255, 255], [0, 0, 64]⟩),
    ("retro", ⟨[255, 255, 0], [64, 0, 64]⟩)]

abbrev defaultScheme : String := "classic"

inductive PictureError where
  | unknownScheme (name : String)
  | scale (given : Int)
  | component (given : Int)
  | shape (error : ShapeError)
  | room (error : RoomError)
  deriving DecidableEq, Repr

def scheme (name : String) : Except PictureError Palette :=
  match schemes.lookup name with
  | some palette => .ok palette
  | none => .error (.unknownScheme name)

/-- What the error is answered with. A component is left to the caller's words. -/
def PictureError.message : PictureError → String
  | .unknownScheme name =>
    let given := Log.enclosed name
    let known := Log.listed (schemes.map Prod.fst)
    s!"Unknown color scheme {given}. Available: {known}"
  | .scale given => s!"Scale must be a positive integer, got {given}"
  | .component given => s!"Color component {given} is not a byte"
  | .shape e => e.message
  | .room e => e.message

/-- A painted picture: its rows of colours, and the number of components of each. -/
structure Image where
  rows : List (List Colour)
  width : Nat
  depth : Nat
  deriving DecidableEq, Repr

/-- The components of a colour, of which the first that is no byte is refused. -/
def colour : List Int → Except PictureError Colour
  | [] => .ok []
  | c :: rest =>
    if 0 ≤ c ∧ c < 256 then (colour rest).map (UInt8.ofNat c.toNat :: ·)
    else .error (.component c)

/-- Paints rows of pixels, each pixel as a square block. -/
def paint (scale : Nat) (palette : Palette) (rows : List (List Bool)) : Image where
  rows := rows.flatMap fun row =>
    List.replicate scale <|
      row.flatMap fun lit => List.replicate scale (if lit then palette.on else palette.off)
  width := (rows.head?.getD []).length * scale
  depth := palette.off.length

def scaleOf (given : Int) : Except PictureError Nat :=
  if given < 1 then .error (.scale given) else .ok given.toNat

def room (memory : Nat) (demands : List Demand) : Except PictureError Unit :=
  (Demand.checkAll memory demands).mapError .room

def screenScale (memory depth : Nat) (given : Int) : Except PictureError Nat := do
  let scale ← scaleOf given
  room memory (Demand.ofDisplay screenHeight screenWidth scale depth)
  return scale

/-- Paints nested lists of numbers, where there is memory for so many bytes. The nesting is checked
first, except that it is one of rows, then the scale, the unlit colour and the lit colour. -/
def render (memory : Nat) (scale : Int) (on off : List Int) (display : Cells) :
    Except PictureError Image := do
  let shape ← display.shape.mapError .shape
  let scale ← scaleOf scale
  let depth := off.length
  room memory (Demand.ofPalette depth)
  let off ← colour off
  let on ← colour on
  room memory (Demand.ofBlock scale depth shape)
  let rows ← display.rows.mapError .shape
  room memory (Demand.ofPicture (shape.getD 0 0) (shape.getD 1 0) scale depth)
  return paint scale ⟨on, off⟩ rows

/-- The part of a glyph that is written: all but the NUL characters at its end. -/
def glyph (text : String) : List Char :=
  (text.toList.reverse.dropWhile fun c => c.toNat = 0).reverse

def textRows (on off : String) (rows : List (List Bool)) : List String :=
  rows.map fun row => String.ofList <|
    row.flatMap fun lit => if lit then glyph on else glyph off

def text (on off : String) (rows : List (List Bool)) : String :=
  "\n".intercalate (textRows on off rows)

abbrev defaultOn : String := "#"

abbrev defaultOff : String := "."

end Chip8.Picture

def Chip8.Display.text (d : Chip8.Display) : List String :=
  Chip8.Picture.textRows Chip8.Picture.defaultOn Chip8.Picture.defaultOff d.pixels
