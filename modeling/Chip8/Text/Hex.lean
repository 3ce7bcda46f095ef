namespace Chip8.Hex

/-- The digits of a natural number, highest first and without leading zeros. -/
def digits (n : Nat) : List Char :=
  (Nat.toDigits 16 n).map Char.toUpper

def padded (width : Nat) : Int → String
  | .ofNat n => String.ofList ((digits n).leftpad width '0')
  | .negSucc n => String.ofList ('-' :: (digits (n + 1)).leftpad (width - 1) '0')

def short (i : Int) : String :=
  padded 0 i

def marked (i : Int) : String :=
  "0x" ++ short i

def address (width : Nat) (i : Int) : String :=
  "0x" ++ padded width i

/-- A byte as two lower-case digits. -/
def byte (b : UInt8) : String :=
  String.ofList ((Nat.toDigits 16 b.toNat).leftpad 2 '0')

/-- The mark, the sign of a negative number, and the digits of its size. -/
theorem marked_eq (i : Int) :
    marked i = "0x" ++ (if i < 0 then "-" else "") ++ String.ofList (digits i.natAbs) := by
  rw [← String.toList_inj]
  cases i with
  | ofNat n => simp [marked, short, padded, List.leftpad]
  | negSucc n => simp [marked, short, padded, List.leftpad, Int.negSucc_lt_zero n]

theorem digits_of_lt {n : Nat} (h : n < 16) : digits n = [n.digitChar.toUpper] := by
  simp only [digits, Nat.toDigits_of_lt_base h, List.map_cons, List.map_nil]

theorem digits_of_le {n : Nat} (h : 16 ≤ n) :
    digits n = digits (n / 16) ++ [(n % 16).digitChar.toUpper] := by
  simp only [digits, Nat.toDigits_of_base_le (by decide : 1 < 16) h, List.map_append, List.map_cons,
    List.map_nil]

theorem digits_ne_nil (n : Nat) : digits n ≠ [] := by
  simp [digits]

theorem digit_injective {a b : Nat} (ha : a < 16) (hb : b < 16)
    (h : a.digitChar.toUpper = b.digitChar.toUpper) : a = b := by
  have all : ∀ a : Fin 16, ∀ b : Fin 16,
      a.val.digitChar.toUpper = b.val.digitChar.toUpper → a = b := by decide
  exact congrArg Fin.val (all ⟨a, ha⟩ ⟨b, hb⟩ h)

/-- A number is told by its digits. -/
theorem digits_injective {a b : Nat} (h : digits a = digits b) : a = b := by
  induction a using Nat.strongRecOn generalizing b with
  | _ a ih =>
    by_cases ha : a < 16 <;> by_cases hb : b < 16
    · rw [digits_of_lt ha, digits_of_lt hb] at h
      exact digit_injective ha hb (List.singleton_inj.mp h)
    · rw [digits_of_lt ha, digits_of_le (Nat.le_of_not_lt hb)] at h
      exact absurd (List.append_eq_singleton_iff.mp h.symm) (by simp [digits_ne_nil])
    · rw [digits_of_le (Nat.le_of_not_lt ha), digits_of_lt hb] at h
      exact absurd (List.append_eq_singleton_iff.mp h) (by simp [digits_ne_nil])
    · rw [digits_of_le (Nat.le_of_not_lt ha), digits_of_le (Nat.le_of_not_lt hb)] at h
      obtain ⟨high, low⟩ := List.append_inj' h rfl
      have quotient := ih (a / 16) (by omega) high
      have remainder := digit_injective (Nat.mod_lt a (by decide)) (Nat.mod_lt b (by decide))
        (List.singleton_inj.mp low)
      omega

/-- The digits are those of hexadecimal numbers in upper case. -/
theorem mem_digits {n : Nat} {c : Char} (h : c ∈ digits n) : c ∈ "0123456789ABCDEF".toList := by
  induction n using Nat.strongRecOn with
  | _ n ih =>
    have digit : ∀ d : Fin 16, d.val.digitChar.toUpper ∈ "0123456789ABCDEF".toList := by decide
    by_cases hn : n < 16
    · rw [digits_of_lt hn] at h
      rw [List.mem_singleton.mp h]
      exact digit ⟨n, hn⟩
    · rw [digits_of_le (Nat.le_of_not_lt hn)] at h
      rcases List.mem_append.mp h with high | low
      · exact ih (n / 16) (by omega) high
      · rw [List.mem_singleton.mp low]
        exact digit ⟨n % 16, Nat.mod_lt n (by decide)⟩

@[simp] theorem toList_short (n : Nat) : (short n).toList = digits n := by
  simp [short, padded, List.leftpad]

@[simp] theorem toList_marked (n : Nat) : (marked n).toList = '0' :: 'x' :: digits n := by
  simp [marked]

theorem marked_inj {a b : Nat} : marked a = marked b ↔ a = b := by
  rw [← String.toList_inj, toList_marked, toList_marked]
  simp only [List.cons.injEq, true_and]
  exact ⟨digits_injective, fun h => h ▸ rfl⟩

/-- An address ends in a digit. -/
theorem digit_of_getLast? {width n : Nat} {c : Char}
    (h : (address width n).toList.getLast? = some c) : c ∈ "0123456789ABCDEF".toList := by
  have shown : (address width n).toList =
      "0x".toList ++ List.replicate (width - (digits n).length) '0' ++ digits n := by
    simp [address, padded, List.leftpad]
  rw [shown, List.getLast?_append, List.getLast?_eq_some_getLast (digits_ne_nil n),
    Option.some_or, Option.some.injEq] at h
  rw [← h]
  exact mem_digits (List.getLast_mem (digits_ne_nil n))

end Chip8.Hex
