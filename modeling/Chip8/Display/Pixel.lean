import Chip8.Display.Basic

namespace Chip8.Display

theorem ext_pixel {d e : Display}
    (h : ∀ row column, column < screenWidth → d.pixel row column = e.pixel row column) :
    d = e := by
  obtain ⟨d⟩ := d
  obtain ⟨e⟩ := e
  congr 1
  apply Vector.ext
  intro row hrow
  apply BitVec.eq_of_getMsbD_eq
  intro column hcolumn
  exact h ⟨row, hrow⟩ column hcolumn

@[simp] theorem pixel_blank (row : Fin screenHeight) (column : Nat) :
    blank.pixel row column = false := by
  simp [pixel, blank]

@[simp] theorem pixel_xor (d e : Display) (row : Fin screenHeight) (column : Nat) :
    (d.xor e).pixel row column = (d.pixel row column ^^ e.pixel row column) := by
  simp [pixel, xor]

theorem lt_of_pixel {d : Display} {row : Fin screenHeight} {column : Nat}
    (lit : d.pixel row column = true) : column < screenWidth := by
  apply Decidable.byContradiction
  intro outside
  rw [pixel, BitVec.getMsbD_of_ge _ _ (Nat.le_of_not_lt outside)] at lit
  cases lit

@[simp] theorem getMsbD_dot (column place : Fin screenWidth) :
    (dot column).getMsbD place.val = decide (place = column) := by
  have bit : screenWidth - (screenWidth - 1 - column.val) - 1 = column.val := by
    simp only [screenWidth]
    omega
  have within : screenWidth - 1 - column.val < screenWidth := by
    simp only [screenWidth]
    omega
  rw [dot, BitVec.getMsbD_twoPow, bit, decide_eq_true within, Bool.true_and]
  simp only [Fin.ext_iff]

@[simp] theorem pixel_set (d : Display) (row line : Fin screenHeight)
    (column place : Fin screenWidth) (lit : Bool) :
    (d.set row column lit).pixel line place =
      if line = row ∧ place = column then lit else d.pixel line place := by
  by_cases same : line = row
  · subst same
    cases lit <;> by_cases met : place = column <;>
      simp [set, pixel, BitVec.getMsbD_not, getMsbD_dot, met]
  · have other : row.val ≠ line.val := fun h => same (Fin.ext h.symm)
    simp [set, pixel, same, other]

section Scatter

variable {α : Type} {place : α → Fin screenHeight × Fin screenWidth} {lit : α → Bool}

/-- A pixel on which no item lies stays. -/
theorem pixel_scatter_of_missed (d : Display) {items : List α} {line : Fin screenHeight}
    {column : Fin screenWidth} (missed : ∀ i ∈ items, place i ≠ (line, column)) :
    (d.scatter items place lit).pixel line column = d.pixel line column := by
  induction items generalizing d with
  | nil => rfl
  | cons i rest ih =>
    obtain ⟨first, later⟩ := List.forall_mem_cons.mp missed
    have elsewhere : ¬ (line = (place i).1 ∧ column = (place i).2) := by
      rintro ⟨rfl, rfl⟩
      exact first rfl
    rw [scatter, List.foldl_cons, ← scatter, ih _ later, pixel_set, if_neg elsewhere]

/-- No two items meet on a pixel, so each of them is seen. -/
theorem pixel_scatter_of_mem (apart : Function.Injective place) (d : Display) {items : List α}
    {i : α} (hi : i ∈ items) :
    (d.scatter items place lit).pixel (place i).1 (place i).2 = lit i := by
  induction items generalizing d with
  | nil => cases hi
  | cons j rest ih =>
    rw [scatter, List.foldl_cons, ← scatter]
    by_cases again : i ∈ rest
    · exact ih _ again
    · obtain rfl : i = j := (List.mem_cons.mp hi).resolve_right again
      have missed : ∀ k ∈ rest, place k ≠ ((place i).1, (place i).2) := by
        intro k hk meet
        exact again (apart meet ▸ hk)
      rw [pixel_scatter_of_missed _ missed, pixel_set, if_pos ⟨rfl, rfl⟩]

end Scatter

/-- The sum of 32 bits and the plain one lead to the same place, as the size of the display divides
the number of words. -/
theorem val_around {size : Nat} (positive : 0 < size) (divides : size ∣ Int32.size) (origin : Int)
    (distance : Nat) :
    ((around positive origin distance).val : Int) = (origin + distance) % size := by
  have word : (size : Int) ∣ Int32.size := Int.natCast_dvd_natCast.mpr divides
  have wraps : (Int32.ofInt origin + Int32.ofInt distance).toInt % size =
      (origin + distance) % size := by
    rw [Int32.toInt_add, Int32.toInt_ofInt, Int32.toInt_ofInt, Int.add_bmod_bmod,
      Int.bmod_add_bmod, ← Int.emod_emod_of_dvd _ word, Int.bmod_emod, Int.emod_emod_of_dvd _ word]
  have low := Int.emod_nonneg (origin + distance) (Int.natCast_ne_zero.mpr (Nat.ne_of_gt positive))
  simp only [around, wraps, Int.toNat_of_nonneg low]

/-- From a place the way back leads to the distance from which it was reached. -/
theorem around_eq_iff {size : Nat} (positive : 0 < size) (divides : size ∣ Int32.size)
    (origin : Int) {distance : Nat} (near : distance < size) (p : Fin size) :
    around positive origin distance = p ↔ ((p.val - origin) % size).toNat = distance := by
  have back := Int.emod_nonneg (p.val - origin) (Int.natCast_ne_zero.mpr (Nat.ne_of_gt positive))
  have inside : (p.val : Int) < size := Int.ofNat_lt.mpr p.isLt
  have reached : (distance : Int) < size := Int.ofNat_lt.mpr near
  rw [Fin.ext_iff, ← Int.ofNat_inj, val_around positive divides]
  constructor
  · intro there
    have way : origin + distance - origin = distance := by omega
    rw [← there, Int.emod_sub_emod, way, Int.emod_eq_of_lt (Int.natCast_nonneg _) reached,
      Int.toNat_natCast]
  · rintro rfl
    have way : origin + (p.val - origin) = p.val := by omega
    rw [Int.toNat_of_nonneg back, Int.add_emod_emod, way,
      Int.emod_eq_of_lt (Int.natCast_nonneg _) inside]

theorem spot_eq_iff {column row : Int} {bit : Nibble × Fin 8} {line : Fin screenHeight}
    {place : Fin screenWidth} :
    spot column row bit = (line, place) ↔
      ((line.val - row) % 32).toNat = bit.1.val ∧
        ((place.val - column) % 64).toNat = bit.2.val := by
  have low : bit.1.val < screenHeight := Nat.lt_of_lt_of_le bit.1.isLt (by decide)
  have near : bit.2.val < screenWidth := Nat.lt_of_lt_of_le bit.2.isLt (by decide)
  rw [spot, Prod.mk.injEq, around_eq_iff _ ⟨0x8000000, rfl⟩ row low,
    around_eq_iff _ ⟨0x4000000, rfl⟩ column near]
  rfl

/-- Sixteen rows and eight columns do not meet round the edges. -/
theorem spot_injective (column row : Int) : Function.Injective (spot column row) := by
  intro bit other meet
  obtain ⟨lines, places⟩ := spot_eq_iff.mp meet
  obtain ⟨lines', places'⟩ := spot_eq_iff.mp (rfl : spot column row other = _)
  exact Prod.ext (Fin.ext (lines.symm.trans lines')) (Fin.ext (places.symm.trans places'))

theorem mem_bits (bit : Nibble × Fin 8) : bit ∈ bits := by
  simp [bits, Prod.ext_iff]

/-- A layer shows a bit on each pixel that one lies on. -/
theorem pixel_layer_spot (sprite : Sprite) (height column row : Int) (bit : Nibble × Fin 8) :
    (layer sprite height column row).pixel (spot column row bit).1 (spot column row bit).2 =
      inked sprite height bit := by
  unfold layer
  exact pixel_scatter_of_mem (spot_injective column row) blank (mem_bits bit)

theorem pixel_layer_of_missed {sprite : Sprite} {height column row : Int} {line : Fin screenHeight}
    {place : Fin screenWidth} (missed : ∀ bit, spot column row bit ≠ (line, place)) :
    (layer sprite height column row).pixel line place = false := by
  unfold layer
  rw [pixel_scatter_of_missed _ fun bit _ => missed bit, pixel_blank]

/-- Seen from a pixel, a layer shows the sprite's bit at the distance from the origin, counted round
both edges. -/
theorem pixel_layer (sprite : Sprite) (height column row : Int) (line : Fin screenHeight)
    (place : Fin screenWidth) :
    let r := ((line.val - row) % 32).toNat
    let c := ((place.val - column) % 64).toNat
    (layer sprite height column row).pixel line place =
      (decide (r < min height 16 ∧ c < 8) &&
        (sprite.get (Nibble.ofNat r)).toNat.testBit (7 - c)) := by
  intro r c
  by_cases near : r < 16 ∧ c < 8
  · have met : spot column row (⟨r, near.1⟩, ⟨c, near.2⟩) = (line, place) :=
      spot_eq_iff.mpr ⟨rfl, rfl⟩
    have shown := pixel_layer_spot sprite height column row (⟨r, near.1⟩, ⟨c, near.2⟩)
    have inside : (r : Int) < height ↔ (r : Int) < min height 16 ∧ c < 8 := by omega
    have name : Nibble.ofNat r = ⟨r, near.1⟩ := Fin.ext (Nibble.val_ofNat near.1)
    rw [met] at shown
    rw [shown, inked, name, decide_eq_decide.mpr inside]
  · have missed : ∀ bit, spot column row bit ≠ (line, place) := by
      intro bit meet
      obtain ⟨lines, places⟩ := spot_eq_iff.mp meet
      exact near ⟨by omega, by omega⟩
    have outside : ¬ ((r : Int) < min height 16 ∧ c < 8) := by omega
    rw [pixel_layer_of_missed missed, decide_eq_false outside, Bool.false_and]

/-- A layer depends on its origin modulo the size of the display. -/
theorem layer_congr (sprite : Sprite) (height : Int) {column column' row row' : Int}
    (x : column' % 64 = column % 64) (y : row' % 32 = row % 32) :
    layer sprite height column' row' = layer sprite height column row := by
  apply ext_pixel
  intro line place inside
  have lines : (line.val - row') % 32 = (line.val - row) % 32 := by omega
  have places : ((place : Int) - column') % 64 = (place - column) % 64 := by omega
  have here := pixel_layer sprite height column row line ⟨place, inside⟩
  have there := pixel_layer sprite height column' row' line ⟨place, inside⟩
  simp only [lines, places] at there
  exact there.trans here.symm

/-- A layer depends on the rows that are drawn and no others. -/
theorem layer_congr_rows {sprite sprite' : Sprite} {height : Int}
    (same : ∀ r : Nibble, (r.val : Int) < height → sprite.get r = sprite'.get r)
    (column row : Int) : layer sprite height column row = layer sprite' height column row := by
  have seen : inked sprite height = inked sprite' height := by
    funext bit
    by_cases shown : (bit.1.val : Int) < height
    · rw [inked, inked, same _ shown]
    · rw [inked, inked, decide_eq_false shown, Bool.false_and, Bool.false_and]
  unfold layer
  rw [seen]

theorem overlaps_iff (d e : Display) :
    d.overlaps e = true ↔
      ∃ row column, d.pixel row column = true ∧ e.pixel row column = true := by
  simp only [overlaps, Vector.any_eq_true, pixel, get_eq_getElem]
  constructor
  · rintro ⟨row, hrow, h⟩
    simp only [Vector.getElem_zipWith, bne_iff_ne, ne_eq] at h
    have common : ∃ column, (d.rows[row] &&& e.rows[row]).getMsbD column = true := by
      apply Classical.byContradiction
      intro none
      apply h
      apply BitVec.eq_of_getMsbD_eq
      intro column _
      cases lit : (d.rows[row] &&& e.rows[row]).getMsbD column with
      | false => simp
      | true => exact absurd ⟨column, lit⟩ none
    obtain ⟨column, hcolumn⟩ := common
    exact ⟨⟨row, hrow⟩, column, by simpa using hcolumn⟩
  · rintro ⟨row, column, hd, he⟩
    refine ⟨row.val, row.isLt, ?_⟩
    simp only [Vector.getElem_zipWith, bne_iff_ne, ne_eq]
    intro zero
    have dark := congrArg (fun b => b.getMsbD column) zero
    simp only [Fin.getElem_fin] at hd he
    simp [hd, he] at dark

theorem xor_blank (d : Display) : d.xor blank = d := by
  apply ext_pixel
  intro row column _
  simp

theorem xor_self (d : Display) : d.xor d = blank := by
  apply ext_pixel
  intro row column _
  simp

theorem xor_comm (d e : Display) : d.xor e = e.xor d := by
  apply ext_pixel
  intro row column _
  simp [Bool.xor_comm]

theorem xor_assoc (d e f : Display) : (d.xor e).xor f = d.xor (e.xor f) := by
  apply ext_pixel
  intro row column _
  simp

theorem xor_cancel (d e : Display) : (d.xor e).xor e = d := by
  rw [xor_assoc, xor_self, xor_blank]

end Chip8.Display
