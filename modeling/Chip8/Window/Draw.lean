import Chip8.Picture.Basic

namespace Chip8.Window

/-- A place on the screen, in pixels from the left and from the top. -/
abbrev Position := Int × Int

/-- A call on the window system. A picture is given as the display that it shows. Sizes and rates
are `none` where the setting they come from was left blank. -/
inductive Draw where
  | start
  | setMode (width height : Option Int)
  | caption (text : String)
  | font (size : Nat)
  | screen (display : Display) (scale : Nat) (palette : Picture.Palette)
  | overlay (width height : Int) (alpha : Int) (fill : List Int) (position : Position)
  | text (line : String) (colour : List Int) (position : Position)
  | flip
  | tick (fps : Option Int)
  | stop
  deriving DecidableEq

structure Style where
  background : List Int
  foreground : List Int
  alpha : Int
  deriving DecidableEq, Repr

/-- White on a black ground that the screen shines through. -/
def Style.standard : Style :=
  ⟨[0, 0, 0], [255, 255, 255], 120⟩

def lineHeight : Nat := 10

def characterWidth : Nat := 6

def widest (lines : List String) : Nat :=
  (lines.map fun line => line.length * characterWidth).foldl max 0

def textLines (style : Style) : List String → Position → List Draw
  | [], _ => []
  | line :: rest, (x, y) =>
    .text line style.foreground (x, y) :: textLines style rest (x, y + lineHeight)

/-- Lines of text on a ground with a margin. Nothing is drawn where there are no lines. -/
def overlay (style : Style) (lines : List String) (position : Position) : List Draw :=
  if lines.isEmpty then []
  else
    let ground := .overlay (widest lines + 16) (lines.length * lineHeight + 8) style.alpha
      style.background position
    ground :: textLines style lines (position.1 + 8, position.2 + 4)

end Chip8.Window
