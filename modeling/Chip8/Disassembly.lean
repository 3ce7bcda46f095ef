import Chip8.Instruction.Mnemonic
import Chip8.Memory

namespace Chip8

/-- The text of the word at each address of an image. The last address has no whole word and so no
text. -/
structure Assembly where
  texts : Array (Option String)
  deriving DecidableEq, Repr

structure ImageError where
  size : Nat
  deriving DecidableEq, Repr

def ImageError.message (e : ImageError) : String :=
  s!"Image is {e.size} bytes, larger than {memorySize}"

namespace Assembly

def empty : Assembly :=
  ⟨#[]⟩

def text? (a : Assembly) (address : Int) : Option String :=
  if address < 0 then none else (a.texts[address.toNat]?).join

/-- Two cells of any size as one word, the first one high. -/
def joinCells (high low : Int) : Int :=
  Word.unionBits (high * 0x100) low

/-- The text for each cell: that of the word which begins there, as programs may jump to odd
addresses. -/
def ofCells : List Int → List (Option String)
  | [] => []
  | [_] => [none]
  | high :: low :: rest =>
    some (Instruction.textOfInt (joinCells high low)) :: ofCells (low :: rest)

/-- The assembly of an image. Its cells are integers of any size. -/
def ofImage (cells : List Int) : Except ImageError Assembly :=
  if memorySize < cells.length then .error ⟨cells.length⟩ else .ok ⟨(ofCells cells).toArray⟩

def ofMemory (m : Memory) : Assembly :=
  ⟨(ofCells (m.cells.toList.map fun b => (b.toNat : Int))).toArray⟩

end Assembly

/-- Lines of assembly round an address, for a window that is given in cells. -/
structure Listing where
  texts : Int → Option String
  pc : Int
  window : Int

namespace Listing

abbrev defaultWindow : Int := 12

def addresses (l : Listing) : List Int :=
  let half := l.window.fdiv 2
  (List.range (2 * half).toNat).map fun (i : Nat) => l.pc - half + i

/-- The line of an address, if it has the parity of the program counter and a text. -/
def line? (l : Listing) (address : Int) : Option String :=
  if address % 2 = l.pc % 2 then
    (l.texts address).map fun text =>
      let place := Hex.marked address
      if address = l.pc then s!"->  {place}: {text}" else s!"{place}: {text}"
  else none

def lines (l : Listing) : List String :=
  l.addresses.filterMap l.line?

end Listing

end Chip8
