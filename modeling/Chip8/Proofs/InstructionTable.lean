import Chip8.Instruction.Basic

namespace Chip8

namespace Kind

theorem mem_all (k : Kind) : k ∈ all := by
  cases k with
  | arithmetic op => cases op <;> simp [all]
  | _ => simp [all]

/-- Two kinds agree on the bits that both of their masks look at only if they are the same. -/
theorem eq_of_overlap : ∀ k ∈ all, ∀ l ∈ all,
    k.pattern.value &&& l.pattern.mask = l.pattern.value &&& k.pattern.mask → k = l := by
  decide +kernel

theorem matches_unique {k l : Kind} {w : UInt16} (hk : k.pattern.matchesWord w = true)
    (hl : l.pattern.matchesWord w = true) : k = l := by
  simp only [Pattern.matchesWord, beq_iff_eq] at hk hl
  apply eq_of_overlap k (mem_all k) l (mem_all l)
  rw [← hk, ← hl, UInt16.and_assoc, UInt16.and_assoc, UInt16.and_comm k.pattern.mask]

theorem matches_iff_eq {k l : Kind} {w : UInt16} (hk : k.pattern.matchesWord w = true) :
    l.pattern.matchesWord w = true ↔ l = k :=
  ⟨fun hl => matches_unique hl hk, fun he => he ▸ hk⟩

theorem ofWord?_eq_some {k : Kind} {w : UInt16} :
    ofWord? w = some k ↔ k.pattern.matchesWord w = true := by
  constructor
  · intro h
    exact List.find?_some (p := fun k : Kind => k.pattern.matchesWord w) h
  · intro h
    cases hw : ofWord? w with
    | none => exact absurd h (List.find?_eq_none.mp hw k (mem_all k))
    | some l =>
      have hl := List.find?_some (p := fun k : Kind => k.pattern.matchesWord w) hw
      rw [matches_unique hl h]

theorem ofWord?_eq_none {w : UInt16} :
    ofWord? w = none ↔ ∀ k ∈ all, k.pattern.matchesWord w = false := by
  simp only [ofWord?, List.find?_eq_none, Bool.not_eq_true]

end Kind

namespace Instruction

theorem ofWord_of_matches {k : Kind} {w : UInt16} (h : k.pattern.matchesWord w = true) :
    ofWord w = k.instruction w := by
  simp only [ofWord, Kind.ofWord?_eq_some.mpr h]

/-- A word decodes by the pattern that it shows, or to itself if it shows none. -/
theorem ofWord_cases (w : UInt16) :
    (∃ k : Kind, k.pattern.matchesWord w = true ∧ ofWord w = k.instruction w) ∨
      ofWord w = .unknown w := by
  cases h : Kind.ofWord? w with
  | none => exact .inr (by simp only [ofWord, h])
  | some k =>
    have hk := Kind.ofWord?_eq_some.mp h
    exact .inl ⟨k, hk, ofWord_of_matches hk⟩

end Instruction

end Chip8
