import Chip8.Slots
import Chip8.Word

namespace Chip8

abbrev screenHeight : Nat := 32

abbrev screenWidth : Nat := 64

/-- The pixels of a screen, row by row from the top. -/
structure Display where
  rows : Vector (BitVec screenWidth) screenHeight
  deriving DecidableEq

/-- Sixteen rows of eight pixels, the leftmost pixel the highest bit. -/
abbrev Sprite := Vector UInt8 16

/-- Why a sprite is not drawn: its height, or the row or column of its origin, does not fit into 32
bits. -/
inductive DrawError where
  | height (given : Int)
  | origin (given : Int)
  deriving DecidableEq, Repr

namespace Display

def blank : Display :=
  ⟨Vector.replicate screenHeight 0⟩

def pixel (d : Display) (row : Fin screenHeight) (column : Nat) : Bool :=
  (d.rows.get row).getMsbD column

def pixels (d : Display) : List (List Bool) :=
  d.rows.toList.map fun row => (List.range screenWidth).map row.getMsbD

def dot (column : Fin screenWidth) : BitVec screenWidth :=
  BitVec.twoPow screenWidth (screenWidth - 1 - column.val)

def set (d : Display) (row : Fin screenHeight) (column : Fin screenWidth) (lit : Bool) : Display :=
  let before := d.rows.get row
  ⟨d.rows.set row.val (if lit then before ||| dot column else before &&& ~~~dot column)⟩

/-- Sets the pixels of items one after another, lit and dark ones alike. -/
def scatter {α : Type} (d : Display) (items : List α)
    (place : α → Fin screenHeight × Fin screenWidth) (lit : α → Bool) : Display :=
  items.foldl (fun d i => d.set (place i).1 (place i).2 (lit i)) d

/-- The place at a distance from an origin, round the edge. The two are added in 32 bits, so that
their sum may wrap before it is brought onto the display. -/
def around {size : Nat} (positive : 0 < size) (origin : Int) (distance : Nat) : Fin size :=
  let sum := (Int32.ofInt origin + Int32.ofInt distance).toInt
  ⟨(sum % size).toNat,
    (Int.toNat_lt' positive).mpr (Int.emod_lt_of_pos sum (Int.natCast_pos.mpr positive))⟩

/-- The pixel on which a row and a column of a sprite meet. -/
def spot (column row : Int) (bit : Nibble × Fin 8) : Fin screenHeight × Fin screenWidth :=
  (around (by decide) row bit.1.val, around (by decide) column bit.2.val)

/-- Whether a bit of a sprite is set and in one of its first `height` rows. -/
def inked (sprite : Sprite) (height : Int) (bit : Nibble × Fin 8) : Bool :=
  bit.1.val < height && (sprite.get bit.1).toNat.testBit (7 - bit.2.val)

def bits : List (Nibble × Fin 8) :=
  (List.finRange 16).flatMap fun r => (List.finRange 8).map fun c => (r, c)

/-- The layer of a sprite, with its top left pixel at a column and row. Rows past the height are
set as well, to dark pixels. -/
@[irreducible] -- so that no proof runs through the 128 pixels by itself
def layer (sprite : Sprite) (height column row : Int) : Display :=
  blank.scatter bits (spot column row) (inked sprite height)

def xor (d e : Display) : Display :=
  ⟨Vector.zipWith (· ^^^ ·) d.rows e.rows⟩

def overlaps (d e : Display) : Bool :=
  (Vector.zipWith (· &&& ·) d.rows e.rows).any (· != 0)

/-- Draws the first `height` rows of a sprite with its top left pixel at a column and row, and
tells whether a lit pixel went out. -/
def blit (d : Display) (sprite : Sprite) (height column row : Int) : Display × Bool :=
  let layer := layer sprite height column row
  (d.xor layer, d.overlaps layer)

/-- Draws a sprite if its height and its origin fit into 32 bits. The height is looked at first,
then the row and the column. -/
def draw (d : Display) (sprite : Sprite) (height column row : Int) :
    Except DrawError (Display × Bool) :=
  if !Word.fitsSigned32 height then .error (.height height)
  else if !Word.fitsSigned32 row then .error (.origin row)
  else if !Word.fitsSigned32 column then .error (.origin column)
  else .ok (d.blit sprite height column row)

end Display

end Chip8
