import Chip8.Proofs.Footprints

namespace Chip8

/-- What result and flag of an operation are to its operands. If they share a register the result
takes the place of the flag. -/
def Arithmetic.Law (shared : Prop) [Decidable shared] (a b result flag : Nat) : Arithmetic → Prop
  | assign => result = b
  | or => result = a ||| b
  | and => result = a &&& b
  | xor => result = a ^^^ b
  | add =>
    if shared then flag = (a + b) % 256 else flag ≤ 1 ∧ 256 * flag + result = a + b
  | subtract =>
    if shared then (flag : Int) = ((a : Int) - b) % 256
    else flag ≤ 1 ∧ (result : Int) = ((a : Int) - b) % 256 ∧ (flag = 1 ↔ b < a)
  | shiftRight =>
    if shared then flag = a / 2 else flag ≤ 1 ∧ 2 * result + flag = a
  | subtractFrom =>
    if shared then (flag : Int) = ((b : Int) - a) % 256
    else flag ≤ 1 ∧ (result : Int) = ((b : Int) - a) % 256 ∧ (flag = 1 ↔ a < b)
  | shiftLeft =>
    if shared then flag = 2 * a % 256 else flag ≤ 1 ∧ 256 * flag + result = 2 * a

namespace Arithmetic

theorem toNat_flag_le (b : Bool) : (flag b).toNat ≤ 1 := by
  rw [toNat_flag]
  exact Bool.toNat_le b

/-- The bytes that an operation answers are as its law says, if the result is written last. -/
theorem law_apply (op : Arithmetic) (shared : Prop) [Decidable shared] (a b before : UInt8) :
    op.Law shared a.toNat b.toNat (op.apply a b).1.toNat
      (if shared then (op.apply a b).1 else (op.apply a b).2.getD before).toNat := by
  have ha := a.toNat_lt
  have half := toNat_shiftRight (by decide : (1 : UInt8).toNat < 8) a
  have high := toNat_shiftRight (by decide : (7 : UInt8).toNat < 8) a
  have low := toNat_and_one a
  have double := toNat_shiftLeft_one a
  cases op with
  | assign => rfl
  | or => exact UInt8.toNat_or a b
  | and => exact UInt8.toNat_and a b
  | xor => exact UInt8.toNat_xor a b
  | add =>
    simp only [Law, apply, Option.getD_some]
    split
    · exact UInt8.toNat_add a b
    · exact ⟨toNat_flag_le _, toNat_add_carry a b⟩
  | subtract =>
    simp only [Law, apply, Option.getD_some]
    split
    · exact toInt_sub a b
    · exact ⟨toNat_flag_le _, toInt_sub a b, toNat_flag_lt b a⟩
  | shiftRight =>
    simp only [Law, apply, Option.getD_some]
    split
    · exact half
    · rw [half, low]
      simp only [UInt8.reduceToNat]
      omega
  | subtractFrom =>
    simp only [Law, apply, Option.getD_some]
    split
    · exact toInt_sub b a
    · exact ⟨toNat_flag_le _, toInt_sub b a, toNat_flag_lt a b⟩
  | shiftLeft =>
    simp only [Law, apply, Option.getD_some]
    split
    · exact double
    · rw [high, double]
      simp only [UInt8.reduceToNat]
      omega

end Arithmetic

open Word

namespace Machine

variable {m : Machine} {w : UInt16} {op : Arithmetic}

theorem register_compute (m : Machine) (op : Arithmetic) (x y r : Nibble) :
    (m.compute op x y).register r =
      if x = r then (op.apply (m.register x) (m.register y)).1
      else if flagRegister = r then
        (op.apply (m.register x) (m.register y)).2.getD (m.register r)
      else m.register r := by
  rcases h : op.apply (m.register x) (m.register y) with ⟨result, _ | bit⟩
  · rw [compute_eq_setRegister h, register_setRegister, Option.getD_none, ite_self]
  · have both : m.compute op x y = (m.setRegister flagRegister bit).setRegister x result := by
      simp only [compute, h]
    rw [both, register_setRegister, register_setRegister, Option.getD_some]

theorem execute_arithmetic (shown : (Kind.arithmetic op).pattern.matchesWord w = true) :
    m.execute w = .silent ((({ m with opcode := w } : Machine).compute op (x w) (y w)).advance 2) :=
  execute_of_matches shown rfl

theorem register_arithmetic (shown : (Kind.arithmetic op).pattern.matchesWord w = true)
    (r : Nibble) :
    (m.execute w).value.register r =
      if x w = r then (op.apply (m.register (x w)) (m.register (y w))).1
      else if flagRegister = r then
        (op.apply (m.register (x w)) (m.register (y w))).2.getD (m.register r)
      else m.register r := by
  rw [execute_arithmetic shown]
  exact register_compute { m with opcode := w } op (x w) (y w) r

theorem execute_addTo (shown : Kind.addTo.pattern.matchesWord w = true) :
    m.execute w = .silent ((({ m with opcode := w } : Machine).setRegister (x w)
      (m.register (x w) + kk w)).advance 2) :=
  execute_of_matches shown rfl

theorem register_addTo (shown : Kind.addTo.pattern.matchesWord w = true) (r : Nibble) :
    (m.execute w).value.register r =
      if x w = r then m.register (x w) + kk w else m.register r := by
  rw [execute_addTo shown]
  exact register_setRegister { m with opcode := w } (x w) r _

/-- An operation leaves result and flag as its law says, of what the two registers held before and
whichever of them are the same. Those without a flag, and the addition of a byte, write the flag
register only as their result. No operation faults or writes a third register. -/
theorem computes_by_law (m : Machine) (w : UInt16) :
    let next := (m.execute w).value
    (∀ op, IsOf [.arithmetic op] w →
      op.Law (x w = flagRegister) (m.register (x w)).toNat (m.register (y w)).toNat
        (next.register (x w)).toNat (next.register flagRegister).toNat) ∧
    (IsOf [.addTo, .arithmetic .assign, .arithmetic .or, .arithmetic .and, .arithmetic .xor] w →
      x w ≠ flagRegister → next.register flagRegister = m.register flagRegister) ∧
    ∀ op, IsOf [.addTo, .arithmetic op] w →
      ¬ Faults (m.execute w) ∧
        ∀ r, r ≠ x w → r ≠ flagRegister → next.register r = m.register r := by
  intro next
  refine ⟨?_, ?_, ?_⟩
  · intro op known
    have shown := isOf_singleton.mp known
    have law := op.law_apply (x w = flagRegister) (m.register (x w)) (m.register (y w))
      (m.register flagRegister)
    have flag := register_arithmetic (m := m) shown flagRegister
    rw [if_pos rfl] at flag
    rw [← flag] at law
    simp only [next]
    rw [register_arithmetic shown (x w), if_pos rfl]
    exact law
  · intro known other
    rw [isOf_cons, isOf_cons, isOf_cons, isOf_cons, isOf_singleton] at known
    rcases known with shown | shown | shown | shown | shown
    · exact (register_addTo shown flagRegister).trans (if_neg other)
    all_goals
      refine (register_arithmetic shown flagRegister).trans ?_
      rw [if_neg other, if_pos rfl]
      rfl
  · intro op known
    rw [isOf_cons, isOf_singleton] at known
    rcases known with shown | shown
    · refine ⟨execute_addTo shown ▸ not_faults_silent _, ?_⟩
      intro r apart _
      exact (register_addTo shown r).trans (if_neg (Ne.symm apart))
    · refine ⟨execute_arithmetic shown ▸ not_faults_silent _, ?_⟩
      intro r apart apart'
      rw [register_arithmetic shown r, if_neg (Ne.symm apart), if_neg (Ne.symm apart')]

/-- The flag register is the second operand of an addition that carries, and the target of a
subtraction that wraps. -/
theorem computes_by_law_in_flag_register :
    let m : Machine := { (boot ⟨0, 0⟩ []).value with
      registers := Vector.ofFn fun r => 240 + UInt8.ofNat r.val }
    let added := (m.execute 0x82F4).value
    let subtracted := (m.execute 0x8F25).value
    (IsOf [.arithmetic .add] 0x82F4 ∧ IsOf [.arithmetic .subtract] 0x8F25 ∧
      IsOf [.addTo, .arithmetic .assign, .arithmetic .or, .arithmetic .and,
        .arithmetic .xor] 0x72FF ∧ x 0x72FF ≠ flagRegister ∧
      IsOf [.addTo, .arithmetic .add] 0x82F4 ∧ (3 : Nibble) ≠ x 0x82F4 ∧
      (3 : Nibble) ≠ flagRegister) ∧
    256 * (added.register flagRegister).toNat + (added.register 2).toNat = 242 + 255 ∧
    ((subtracted.register flagRegister).toNat : Int) = (255 - 242) % 256 ∧
    (m.execute 0x72FF).value.register flagRegister = m.register flagRegister ∧
    added.register 3 = m.register 3 := by
  intro m added subtracted
  have adds : IsOf [.arithmetic .add] 0x82F4 := by decide
  have subtracts : IsOf [.arithmetic .subtract] 0x8F25 := by decide
  have plain : IsOf [.addTo, .arithmetic .assign, .arithmetic .or, .arithmetic .and,
      .arithmetic .xor] 0x72FF := by decide
  have either : IsOf [.addTo, .arithmetic .add] 0x82F4 := by decide
  have held : m.register (x 0x82F4) = 242 ∧ m.register (y 0x82F4) = 255 ∧
      m.register (x 0x8F25) = 255 ∧ m.register (y 0x8F25) = 242 := by decide
  have sum := (computes_by_law m 0x82F4).1 .add adds
  have difference := (computes_by_law m 0x8F25).1 .subtract subtracts
  have kept := (computes_by_law m 0x72FF).2.1 plain (by decide)
  have third := ((computes_by_law m 0x82F4).2.2 .add either).2 3 (by decide) (by decide)
  rw [held.1, held.2.1] at sum
  rw [held.2.2.1, held.2.2.2] at difference
  exact ⟨⟨adds, subtracts, plain, by decide, either, by decide, by decide⟩, sum.2, difference,
    kept, third⟩

end Machine

end Chip8
