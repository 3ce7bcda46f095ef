import Chip8.Word

namespace Chip8

inductive Cells where
  | number (value : Int)
  | group (items : List Cells)

inductive ShapeError where
  | uneven (shape : List Nat)
  | tooDeep
  | notRows (shape : List Nat)
  deriving DecidableEq, Repr

/-- A shape in brackets, with a comma after a length that stands alone. -/
def shapeText : List Nat → String
  | [n] => s!"({n},)"
  | shape => "(" ++ ", ".intercalate (shape.map toString) ++ ")"

namespace Cells

abbrev depthLimit : Nat := 64

/-- The length that lists have in common, if there is a list and all are equally long. -/
def commonLength : List Cells → Option Nat
  | [] => none
  | .number _ :: _ => none
  | .group items :: rest =>
    if rest.all fun c => match c with
      | .group others => others.length == items.length
      | .number _ => false
    then some items.length else none

def contents (level : List Cells) : List Cells :=
  level.flatMap fun c => match c with
    | .group items => items
    | .number _ => []

def depth : Cells → Nat
  | .number _ => 0
  | .group [] => 1
  | .group (first :: rest) => max (first.depth + 1) (Cells.group rest).depth

/-- The lengths that nested lists have in common, level by level, down to a level of which this
cannot be said, and whether that level holds a list. -/
def commonShape : Nat → List Cells → List Nat × Bool
  | 0, _ => ([], false)
  | depth + 1, level =>
    match commonLength level with
    | some length =>
      let (inner, uneven) := commonShape depth (contents level)
      (length :: inner, uneven)
    | none => ([], level.any fun c => match c with
      | .group _ => true
      | .number _ => false)

/-- The lengths of nested lists, from the outermost inwards. Lists that are uneven further in, or
nested too deep, have none. -/
def shape (c : Cells) : Except ShapeError (List Nat) :=
  let (shape, uneven) := commonShape c.depth [c]
  if uneven ∨ depthLimit < shape.length then
    if shape.length < depthLimit then .error (.uneven shape) else .error .tooDeep
  else .ok shape

def lit? : Cells → Option Bool
  | .number value => some (value != 0)
  | .group _ => none

def row? : Cells → Option (List Bool)
  | .number _ => none
  | .group items => items.mapM lit?

def rows? : Cells → Option (List (List Bool))
  | .number _ => none
  | .group items => items.mapM row?

def rows (c : Cells) : Except ShapeError (List (List Bool)) :=
  match c.shape with
  | .error e => .error e
  | .ok shape =>
    match shape, c.rows? with
    | [_, _], some rows => .ok rows
    | _, _ => .error (.notRows shape)

end Cells

def ShapeError.message : ShapeError → String
  | .uneven shape =>
    let detected := shapeText shape
    s!"setting an array element with a sequence. The requested array has an inhomogeneous shape after {shape.length} dimensions. The detected shape was {detected} + inhomogeneous part."
  | .tooDeep =>
    s!"setting an array element with a sequence. The requested array would exceed the maximum number of dimension of {Cells.depthLimit}."
  | .notRows shape => s!"Expected a 2D framebuffer, got shape {shapeText shape}"

end Chip8
