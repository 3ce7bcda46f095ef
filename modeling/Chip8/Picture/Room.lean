import Chip8.Picture.Cells
import Chip8.Text.ByteSize

namespace Chip8

/-- What an array holds in each of its places. -/
inductive Content where
  | bit
  | byte
  | number
  deriving DecidableEq, Repr

namespace Content

def bytes : Content → Nat
  | bit | byte => 1
  | number => 8

def name : Content → String
  | bit => "bool"
  | byte => "uint8"
  | number => "int64"

end Content

structure Layout where
  content : Content
  shape : List Nat
  deriving DecidableEq, Repr

namespace Layout

def bytes (a : Layout) : Nat :=
  a.shape.foldl (· * ·) a.content.bytes

/-- The bytes of an array of which no side is empty. Whether an array can be counted does not depend
on its empty sides, although it takes no memory if it has one. -/
def extent (a : Layout) : Nat :=
  a.shape.foldl (fun bytes side => bytes * max side 1) a.content.bytes

def total : List Layout → Nat
  | [] => 0
  | a :: rest => a.bytes + total rest

def palette (depth : Nat) : Layout :=
  ⟨.byte, [2, depth]⟩

def block (scale : Nat) : Layout :=
  ⟨.number, [scale, scale]⟩

def lit (shape : List Nat) : Layout :=
  ⟨.bit, shape⟩

def numbers (shape : List Nat) : Layout :=
  ⟨.number, shape⟩

def blocks (height width scale : Nat) : Layout :=
  ⟨.number, [height, scale, width, scale]⟩

def picture (height width scale depth : Nat) : Layout :=
  ⟨.byte, [height * scale, width * scale, depth]⟩

end Layout

inductive RoomError where
  | side
  | size
  | memory (array : Layout)
  deriving DecidableEq, Repr

def RoomError.message : RoomError → String
  | .side => "Maximum allowed dimension exceeded"
  | .size => "array is too big; `arr.size * arr.dtype.itemsize` is larger than the maximum possible size."
  | .memory array =>
    let size := ByteSize.text array.bytes
    let shape := shapeText array.shape
    s!"Unable to allocate {size} for an array with shape {shape} and data type {array.content.name}"

/-- An array that is asked for while others are held. -/
structure Demand where
  asked : Layout
  held : List Layout

namespace Demand

/-- The largest length, and the largest number of bytes. -/
abbrev countLimit : Nat := 0x7FFFFFFFFFFFFFFF

def check (memory : Nat) (d : Demand) : Except RoomError Unit :=
  if d.asked.shape.any (countLimit < ·) then .error .side
  else if countLimit < d.asked.extent then .error .size
  else if memory < Layout.total (d.asked :: d.held) then .error (.memory d.asked)
  else .ok ()

/-- Looks at one demand after another, up to the first that is not met. -/
def checkAll (memory : Nat) : List Demand → Except RoomError Unit
  | [] => .ok ()
  | d :: rest =>
    match d.check memory with
    | .error e => .error e
    | .ok () => checkAll memory rest

-- The palette and the block are held to the end. The numbers are made of the lit pixels and let go
-- when they are multiplied, and the picture is looked up in their product.

def ofPalette (depth : Nat) : List Demand :=
  [⟨.palette depth, []⟩]

def ofBlock (scale depth : Nat) (shape : List Nat) : List Demand :=
  [⟨.block scale, [.palette depth]⟩,
    ⟨.lit shape, [.palette depth, .block scale]⟩,
    ⟨.numbers shape, [.palette depth, .block scale, .lit shape]⟩]

def ofPicture (height width scale depth : Nat) : List Demand :=
  [⟨.blocks height width scale, [.palette depth, .block scale, .numbers [height, width]]⟩,
    ⟨.picture height width scale depth,
      [.palette depth, .block scale, .blocks height width scale]⟩]

def ofDisplay (height width scale depth : Nat) : List Demand :=
  ofPalette depth ++ ofBlock scale depth [height, width] ++ ofPicture height width scale depth

end Demand

end Chip8
