namespace Chip8.Grouped

/-- Puts a comma before every third character from the right. The argument is read from the
right, and so is the result. -/
def commas : List Char → List Char
  | a :: b :: c :: d :: rest => a :: b :: c :: ',' :: commas (d :: rest)
  | short => short

def ofNat (n : Nat) : String :=
  String.ofList (commas (Nat.toDigits 10 n).reverse).reverse

def ofInt : Int → String
  | .ofNat n => ofNat n
  | .negSucc n => "-" ++ ofNat (n + 1)

end Chip8.Grouped
