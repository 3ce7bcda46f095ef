import Chip8.Disassembly
import Chip8.Machine.Control
import Chip8.Proofs.Dispatch
import Chip8.Proofs.Effects

namespace Chip8

/-- Two texts are cut at the first of a mark that neither holds before it. -/
theorem cut_injective {c : Char} {a b r t : List Char} (ha : c ∉ a) (hb : c ∉ b)
    (h : a ++ c :: r = b ++ c :: t) : a = b ∧ r = t := by
  induction a generalizing b with
  | nil =>
    cases b with
    | nil => exact ⟨rfl, (List.cons.inj h).2⟩
    | cons d rest => exact absurd (List.mem_cons.mpr (.inl (List.cons.inj h).1)) hb
  | cons e before ih =>
    cases b with
    | nil => exact absurd (List.mem_cons.mpr (.inl (List.cons.inj h).1.symm)) ha
    | cons d rest =>
      rw [List.mem_cons, not_or] at ha hb
      obtain ⟨rfl, later⟩ := List.cons.inj h
      obtain ⟨rfl, same⟩ := ih ha.2 hb.2 later
      exact ⟨rfl, same⟩

/-- Texts joined by a comma and more are told apart if none of them holds a comma. -/
theorem join_injective {gap : List Char} {xs ys : List (List Char)} (hx : ∀ x ∈ xs, ',' ∉ x)
    (hy : ∀ y ∈ ys, ',' ∉ y) (full : xs ≠ []) (full' : ys ≠ [])
    (h : (',' :: gap).intercalate xs = (',' :: gap).intercalate ys) : xs = ys := by
  induction xs generalizing ys with
  | nil => exact absurd rfl full
  | cons x rest ih =>
    cases ys with
    | nil => exact absurd rfl full'
    | cons y others =>
      rw [List.forall_mem_cons] at hx hy
      cases rest with
      | nil =>
        cases others with
        | nil => simpa using h
        | cons z tail =>
          simp only [List.intercalate_singleton, List.intercalate_cons_cons] at h
          exact absurd (h ▸ by simp) hx.1
      | cons w rest =>
        cases others with
        | nil =>
          simp only [List.intercalate_singleton, List.intercalate_cons_cons] at h
          exact absurd (h ▸ by simp) hy.1
        | cons z tail =>
          simp only [List.intercalate_cons_cons, List.append_assoc, List.cons_append] at h
          obtain ⟨rfl, later⟩ := cut_injective hx.1 hy.1 h
          rw [ih hx.2 hy.2 (List.cons_ne_nil _ _) (List.cons_ne_nil _ _)
            (List.append_cancel_left later)]

namespace Mnemonic

/-- Whether the text of a mnemonic can be cut into its parts: no blank in the name and no comma in
an operand. -/
structure Clear (m : Mnemonic) : Prop where
  name : ' ' ∉ m.name.toList
  operands : ∀ o ∈ m.operands, ',' ∉ o.toList

variable {m n : Mnemonic}

theorem toList_text (h : m.operands ≠ []) : m.text.toList =
    m.name.toList ++ ' ' :: [',', ' '].intercalate (m.operands.map String.toList) := by
  simp [text, h]

theorem text_injective (hm : m.Clear) (hn : n.Clear) (h : m.text = n.text) : m = n := by
  obtain ⟨a, xs⟩ := m
  obtain ⟨b, ys⟩ := n
  by_cases ex : xs = [] <;> by_cases ey : ys = []
  · subst ex ey
    have names : a = b := h
    rw [names]
  · -- One of the texts is a bare name, the other has a blank.
    have ht := toList_text (m := ⟨b, ys⟩) ey
    rw [← h] at ht
    subst ex
    exact absurd (ht ▸ by simp : ' ' ∈ a.toList) hm.name
  · have ht := toList_text (m := ⟨a, xs⟩) ex
    rw [h] at ht
    subst ey
    exact absurd (ht ▸ by simp : ' ' ∈ b.toList) hn.name
  · have ht := congrArg String.toList h
    rw [toList_text (m := ⟨a, xs⟩) ex, toList_text (m := ⟨b, ys⟩) ey] at ht
    obtain ⟨names, operands⟩ := cut_injective hm.name hn.name ht
    have same := join_injective (by simpa using hm.operands) (by simpa using hn.operands)
      (by simpa using ex) (by simpa using ey) operands
    rw [mk.injEq]
    exact ⟨String.toList_inj.mp names, (List.map_inj_right fun _ _ => String.toList_inj.mp).mp same⟩

/-- What a mnemonic shows of a kind: the name, and how each operand begins. -/
def outline (m : Mnemonic) : String × List (Option Char) :=
  (m.name, m.operands.map fun o => o.toList.head?)

@[simp] theorem toList_register (x : Nibble) : (register x).toList = 'v' :: Hex.digits x.val := by
  simp [register]

@[simp] theorem toList_byte (b : UInt8) : (byte b).toList = '0' :: 'x' :: Hex.digits b.toNat := by
  simp [byte]

@[simp] theorem toList_address (a : UInt16) :
    (address a).toList = '0' :: 'x' :: Hex.digits a.toNat := by
  simp [address]

@[simp] theorem register_inj {x y : Nibble} : register x = register y ↔ x = y := by
  rw [← String.toList_inj, toList_register, toList_register, List.cons.injEq, Fin.ext_iff]
  exact ⟨fun h => Hex.digits_injective h.2, fun h => h ▸ ⟨rfl, rfl⟩⟩

@[simp] theorem byte_inj {b c : UInt8} : byte b = byte c ↔ b = c := by
  rw [byte, byte, Hex.marked_inj, UInt8.toNat_inj]

@[simp] theorem address_inj {a b : UInt16} : address a = address b ↔ a = b := by
  rw [address, address, Hex.marked_inj, UInt16.toNat_inj]

end Mnemonic

namespace Instruction

open Mnemonic

theorem comma_digits (n : Nat) : ',' ∉ Hex.digits n := by
  intro h
  exact absurd (Hex.mem_digits h) (by decide)

theorem clear_mnemonic (i : Instruction) : i.mnemonic.Clear := by
  cases i with
  | arithmetic op x y =>
    cases op <;> constructor <;> simp [mnemonic, Arithmetic.mnemonic, comma_digits]
  | unknown word =>
    refine ⟨?_, nofun⟩
    have blank : ' ' ∉ Hex.digits word.toNat := fun h => absurd (Hex.mem_digits h) (by decide)
    simp [mnemonic, blank]
  | _ => constructor <;> simp [mnemonic, comma_digits]

theorem outline_of_kind (k : Kind) (w : UInt16) :
    (k.instruction w).mnemonic.outline = (k.instruction 0).mnemonic.outline := by
  cases k with
  | arithmetic op =>
    cases op <;> simp [Kind.instruction, Kind.withOperands, Operands.ofWord, mnemonic,
      Arithmetic.mnemonic, outline]
  | _ => simp [Kind.instruction, Kind.withOperands, Operands.ofWord, mnemonic, outline]

theorem kind_of_outline : ∀ k ∈ Kind.all, ∀ l ∈ Kind.all,
    (k.instruction 0).mnemonic.outline = (l.instruction 0).mnemonic.outline → k = l := by
  decide +kernel

theorem name_of_kind : ∀ k ∈ Kind.all, (k.instruction 0).mnemonic.name.toList.head? ≠ some '0' := by
  decide +kernel

/-- The mnemonics of two words tell their kinds. -/
theorem kind_of_mnemonic {k l : Kind} {w v : UInt16}
    (h : (k.instruction w).mnemonic = (l.instruction v).mnemonic) : k = l := by
  apply kind_of_outline k (Kind.mem_all k) l (Kind.mem_all l)
  rw [← outline_of_kind k w, ← outline_of_kind l v, h]

theorem mnemonic_ne_unknown (k : Kind) (w v : UInt16) :
    (k.instruction w).mnemonic ≠ (unknown v).mnemonic := by
  intro h
  have names : (k.instruction 0).mnemonic.name = Hex.marked v.toNat := by
    have ho := congrArg (fun o => o.1) (outline_of_kind k w)
    rw [h] at ho
    exact ho.symm
  have begun := name_of_kind k (Kind.mem_all k)
  rw [names, Hex.toList_marked] at begun
  exact begun rfl

/-- Words with one mnemonic are of one kind, or they are one word of no kind. -/
theorem decoded_alike {w v : UInt16} (h : (ofWord w).mnemonic = (ofWord v).mnemonic) :
    (∃ k, Kind.ofWord? w = some k ∧ Kind.ofWord? v = some k) ∨
      (Kind.ofWord? w = none ∧ w = v) := by
  unfold ofWord at h
  cases hw : Kind.ofWord? w with
  | some k =>
    cases hv : Kind.ofWord? v with
    | some l =>
      rw [hw, hv] at h
      exact .inl ⟨k, rfl, by rw [kind_of_mnemonic h]⟩
    | none =>
      rw [hw, hv] at h
      exact absurd h (mnemonic_ne_unknown k w v)
  | none =>
    cases hv : Kind.ofWord? v with
    | some l =>
      rw [hw, hv] at h
      exact absurd h.symm (mnemonic_ne_unknown l v w)
    | none =>
      rw [hw, hv] at h
      have values := Hex.marked_inj.mp (Mnemonic.mk.inj h).1
      exact .inr ⟨rfl, UInt16.toNat_inj.mp values⟩

/-- Every operand that an instruction reads is shown. -/
theorem performOn_of_mnemonic {k : Kind} {w v : UInt16}
    (h : (k.instruction w).mnemonic = (k.instruction v).mnemonic) (bus : UInt8) (m : Machine) :
    m.performOn bus (k.instruction w) = m.performOn bus (k.instruction v) := by
  cases k with
  | arithmetic op =>
    cases op with
    | shiftRight | shiftLeft =>
      -- The second register is not shown, and not read.
      simp only [Kind.instruction, Kind.withOperands, Operands.ofWord, mnemonic,
        Arithmetic.mnemonic, mk.injEq, List.cons.injEq, register_inj, true_and, and_true] at h
      simp only [Kind.instruction, Kind.withOperands, Operands.ofWord, h]
      rfl
    | _ =>
      simp only [Kind.instruction, Kind.withOperands, Operands.ofWord, mnemonic,
        Arithmetic.mnemonic, mk.injEq, List.cons.injEq, register_inj, true_and, and_true] at h
      simp only [Kind.instruction, Kind.withOperands, Operands.ofWord, h]
  | draw =>
    simp only [Kind.instruction, Kind.withOperands, Operands.ofWord, mnemonic, mk.injEq,
      List.cons.injEq, register_inj, Hex.marked_inj, true_and, and_true, ← Fin.ext_iff] at h
    simp only [Kind.instruction, Kind.withOperands, Operands.ofWord, h]
  | _ =>
    simp only [Kind.instruction, Kind.withOperands, Operands.ofWord, mnemonic, mk.injEq,
      List.cons.injEq, register_inj, byte_inj, address_inj, true_and, and_true] at h
    simp only [Kind.instruction, Kind.withOperands, Operands.ofWord, h]

theorem textOfInt_word (w : UInt16) : textOfInt w.toNat = (ofWord w).text := by
  have word : UInt16.ofInt w.toNat = w := by
    have small := w.toNat_lt
    rw [← UInt16.toNat_inj, Word.toNat_ofInt]
    omega
  simp only [textOfInt, ofWord, Kind.ofInt?_eq, Operands.ofInt_eq, word]
  cases Kind.ofWord? w with
  | some k => rfl
  | none => simp [text, mnemonic, Mnemonic.text]

end Instruction

namespace Machine

open Instruction

/-- No instruction reads the word that is recorded as fetched. -/
theorem performOn_recorded (bus : UInt8) (m : Machine) (w : UInt16) (i : Instruction) :
    ({ m with opcode := w } : Machine).performOn bus i =
      (m.performOn bus i).map fun next => { next with opcode := w } := by
  cases i with
  | arithmetic op x y => cases op <;> rfl
  | _ =>
    simp only [performOn]
    first
    | rfl
    | (rw [apply_ite (Except.map _)]; rfl)

theorem execute_recorded {m : Machine} {w v : UInt16}
    (same : m.performOn 0 (.ofWord w) = m.performOn 0 (.ofWord v))
    (remarked : m.remarks (.ofWord w) = m.remarks (.ofWord v)) :
    (m.execute w).trace = (m.execute v).trace ∧
      (m.execute w).value = { (m.execute v).value with opcode := w } := by
  have remarks : ∀ (u : UInt16) (i : Instruction),
      ({ m with opcode := u } : Machine).remarks i = m.remarks i := by
    intro u i
    cases i <;> rfl
  simp only [execute, executeOn, remarks, remarked, performOn_recorded, same]
  cases m.performOn 0 (.ofWord v) <;> exact ⟨rfl, rfl⟩

/-- Words that are listed alike do the same to every machine and report the same, the word
recorded as fetched left aside. They are of one kind, or they are one word. -/
theorem listed_alike {w v : UInt16} (alike : textOfInt w.toNat = textOfInt v.toNat) :
    (∀ m : Machine, (m.execute w).trace = (m.execute v).trace ∧
      (m.execute w).value = { (m.execute v).value with opcode := w }) ∧
    Kind.ofWord? w = Kind.ofWord? v ∧ (Kind.ofWord? w = none → w = v) := by
  rw [textOfInt_word, textOfInt_word] at alike
  have shown := Mnemonic.text_injective (clear_mnemonic _) (clear_mnemonic _) alike
  rcases decoded_alike shown with ⟨k, hw, hv⟩ | ⟨unknown, rfl⟩
  · have dw := ofWord_of_matches (Kind.ofWord?_eq_some.mp hw)
    have dv := ofWord_of_matches (Kind.ofWord?_eq_some.mp hv)
    rw [dw, dv] at shown
    refine ⟨?_, hw.trans hv.symm, fun none => ?_⟩
    · intro m
      apply execute_recorded
      · rw [dw, dv, performOn_of_mnemonic shown]
      · rw [dw, dv]
        cases k <;> rfl
    · rw [hw] at none
      cases none
  · exact ⟨fun m => execute_recorded rfl rfl, rfl, fun _ => rfl⟩

/-- The last nibble of a comparison of registers is not listed. -/
theorem listed_alike_without_last_nibble :
    textOfInt (0x5120 : UInt16).toNat = textOfInt (0x512F : UInt16).toNat ∧
    (0x5120 : UInt16) ≠ 0x512F ∧
    ∀ m : Machine,
      (m.execute 0x5120).value = { (m.execute 0x512F).value with opcode := 0x5120 } := by
  have alike : textOfInt (0x5120 : UInt16).toNat = textOfInt (0x512F : UInt16).toNat := by
    decide +kernel
  exact ⟨alike, by decide, fun m => ((listed_alike alike).1 m).2⟩

end Machine

end Chip8
