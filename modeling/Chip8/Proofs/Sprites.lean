import Chip8.Display.Pixel
import Chip8.Proofs.Footprints

namespace Chip8

namespace Display

/-- Whether the first `height` rows of a sprite, sixteen of them at most, lead from one display to
another. Rows and columns are counted from the origin, round the edges: a pixel on one of those
rows and of the eight columns is switched by its bit, and any other stays. -/
def Drawn (d : Display) (bytes : Nat → UInt8) (height column row : Int) (after : Display) : Prop :=
  ∀ (line : Fin screenHeight) (place : Fin screenWidth),
    let r := ((line.val - row) % 32).toNat
    let c := ((place.val - column) % 64).toNat
    after.pixel line place =
      if r < min height 16 ∧ c < 8 then d.pixel line place ^^ (bytes r).toNat.testBit (7 - c)
      else d.pixel line place

/-- Whether a pixel that was lit is not lit after. -/
def PutOut (d after : Display) : Prop :=
  ∃ (line : Fin screenHeight) (place : Fin screenWidth),
    d.pixel line place = true ∧ after.pixel line place = false

variable {d after : Display} {sprite : Sprite} {height column row : Int}

theorem drawn_blit (d : Display) (sprite : Sprite) (height column row : Int) :
    d.Drawn (fun r => sprite.get (Nibble.ofNat r)) height column row
      (d.blit sprite height column row).1 := by
  intro line place r c
  simp only [blit, pixel_xor, pixel_layer]
  by_cases inside : (r : Int) < min height 16 ∧ c < 8
  · rw [if_pos inside, decide_eq_true inside, Bool.true_and]
  · rw [if_neg inside, decide_eq_false inside, Bool.false_and, Bool.xor_false]

/-- The pixels that a drawing puts out are those that display and sprite have in common. -/
theorem overlaps_iff_putOut (d e : Display) : d.overlaps e = true ↔ d.PutOut (d.xor e) := by
  rw [overlaps_iff]
  constructor
  · rintro ⟨line, place, lit, inked⟩
    refine ⟨line, ⟨place, lt_of_pixel lit⟩, lit, ?_⟩
    rw [pixel_xor, lit, inked]
    rfl
  · rintro ⟨line, place, lit, out⟩
    rw [pixel_xor, lit, Bool.true_xor, Bool.not_eq_false'] at out
    exact ⟨line, place, lit, out⟩

theorem draw_fits (rows : Word.fitsSigned32 height = true) (x : Word.fitsSigned32 column = true)
    (y : Word.fitsSigned32 row = true) (d : Display) (sprite : Sprite) :
    d.draw sprite height column row = .ok (d.blit sprite height column row) := by
  simp [draw, rows, x, y]

theorem draw_of_tall (tall : Word.fitsSigned32 height = false) (d : Display) (sprite : Sprite)
    (column row : Int) : d.draw sprite height column row = .error (.height height) := by
  simp [draw, tall]

/-- Only the rows of a sprite are looked at. -/
theorem Drawn.congr {bytes other : Nat → UInt8} (h : d.Drawn bytes height column row after)
    (same : ∀ r, r < 16 → bytes r = other r) : d.Drawn other height column row after := by
  intro line place r c
  rw [h line place]
  split
  · rename_i inside
    rw [same r (by omega)]
  · rfl

end Display

namespace Machine

open Display

variable {m next : Machine} {w : UInt16}

/-- A drawing that completes stays within memory, leaves the display that the sprite is drawn on,
and writes the flag. -/
theorem performOn_draw {x y height : Nibble} (h : m.performOn 0 (.draw x y height) = .ok next) :
    (0 < height.val → m.index.toNat + height.val ≤ memorySize) ∧
    next.display = (m.display.blit (m.spriteOn 0) height.val (m.register x).toNat
      (m.register y).toNat).1 ∧
    next.register flagRegister = Arithmetic.flag (m.display.blit (m.spriteOn 0) height.val
      (m.register x).toNat (m.register y).toNat).2 := by
  simp only [performOn] at h
  split at h
  · cases h
  · rename_i inside
    simp only [Bool.and_eq_true, decide_eq_true_eq, not_and, Nat.not_lt] at inside
    cases h
    refine ⟨inside, rfl, ?_⟩
    exact (register_setRegister m flagRegister flagRegister _).trans (if_pos rfl)

theorem drawn_spriteOn (m : Machine) (height column row : Int) :
    m.display.Drawn (fun r => m.memory.read 0 (m.index.toNat + r)) height column row
      (m.display.blit (m.spriteOn 0) height column row).1 := by
  apply (drawn_blit _ _ _ _ _).congr
  intro r rows
  have place : (Nibble.ofNat r).val = r := Nat.mod_eq_of_lt rows
  simp only [spriteOn, get_eq_getElem, Fin.getElem_fin, Vector.getElem_ofFn, place]

/-- A sprite whose height and origin fit into 32 bits is drawn pixel by pixel, and a collision is a
lit pixel that went out. Any other height is refused. So a word that draws and completes takes as
many rows from memory as it says, all of them inside, to where the two registers were before the
flag was written. -/
theorem draws_pixel_by_pixel :
    (∀ (d : Display) (sprite : Sprite) (height column row : Int),
      Word.fitsSigned32 height = true → Word.fitsSigned32 column = true →
      Word.fitsSigned32 row = true →
      ∃ after collision, d.draw sprite height column row = .ok (after, collision) ∧
        d.Drawn (fun r => sprite.get (Nibble.ofNat r)) height column row after ∧
        (collision = true ↔ d.PutOut after)) ∧
    (∀ (d : Display) (sprite : Sprite) (height column row : Int),
      Word.fitsSigned32 height = false →
        d.draw sprite height column row = .error (.height height)) ∧
    ∀ (m : Machine) (w : UInt16), w &&& 0xF000 = 0xD000 → ¬ Faults (m.execute w) →
      let next := (m.execute w).value
      (∀ r, r < (Word.n w).val → m.index.toNat + r < memorySize) ∧
      m.display.Drawn (fun r => m.memory.read 0 (m.index.toNat + r)) (Word.n w).val
        (m.register (Word.x w)).toNat (m.register (Word.y w)).toNat next.display ∧
      (m.display.PutOut next.display → next.register flagRegister = 1) ∧
      (¬ m.display.PutOut next.display → next.register flagRegister = 0) := by
  refine ⟨?_, ?_, ?_⟩
  · intro d sprite height column row rows x y
    refine ⟨_, _, draw_fits rows x y d sprite, drawn_blit d sprite height column row, ?_⟩
    exact overlaps_iff_putOut d (layer sprite height column row)
  · intro d sprite height column row tall
    exact draw_of_tall tall d sprite column row
  · intro m w word completes next
    have shown : Kind.draw.pattern.matchesWord w = true := beq_iff_eq.mpr word
    obtain ⟨reached, met, result⟩ := execute_completes completes
    rw [Instruction.ofWord_of_matches shown] at met
    obtain ⟨inside, display, flag⟩ := performOn_draw met
    have out := overlaps_iff_putOut m.display (layer (m.spriteOn 0) (Word.n w).val
      (m.register (Word.x w)).toNat (m.register (Word.y w)).toNat)
    have same : next = reached := result
    rw [same, display, flag]
    refine ⟨?_, drawn_spriteOn m _ _ _, ?_, ?_⟩
    · intro r used
      have inside : m.index.toNat + (Word.n w).val ≤ memorySize := inside (Nat.zero_lt_of_lt used)
      omega
    · intro went
      exact congrArg Arithmetic.flag (out.mpr went)
    · intro stayed
      exact congrArg Arithmetic.flag (Bool.eq_false_iff.mpr fun went => stayed (out.mp went))

/-- The flag register is both column and row, and the glyph of a zero wraps round both edges. The
lowest height that does not fit is refused. -/
theorem draws_pixel_by_pixel_round_corner :
    let sprite : Sprite := Vector.replicate 16 0xFF
    let m := ((boot ⟨0, 0⟩ []).value.execute 0x6FFE).value
    let next := (m.execute 0xDFF5).value
    (Word.fitsSigned32 20 = true ∧ Word.fitsSigned32 (-3) = true ∧
      Word.fitsSigned32 0x7FFFFFFF = true ∧ Word.fitsSigned32 0x80000000 = false ∧
      (0xDFF5 : UInt16) &&& 0xF000 = 0xD000 ∧
      ¬ Faults (m.execute 0xDFF5)) ∧
    (∃ after collision, Display.blank.draw sprite 20 (-3) 0x7FFFFFFF = .ok (after, collision) ∧
      after.pixel 31 61 = true) ∧
    Display.blank.draw sprite 0x80000000 (-3) 0x7FFFFFFF = .error (.height 0x80000000) ∧
    next.display.pixel 30 0 = true ∧ next.register flagRegister = 0 := by
  intro sprite m next
  have completes : ¬ Faults (m.execute 0xDFF5) := by decide +kernel
  have dark : m.display = .blank := by decide +kernel
  obtain ⟨after, collision, drawn, pixels, _⟩ :=
    draws_pixel_by_pixel.1 .blank sprite 20 (-3) 0x7FFFFFFF rfl rfl rfl
  obtain ⟨_, glyph, _, flag⟩ := draws_pixel_by_pixel.2.2 m 0xDFF5 rfl completes
  have refused := draws_pixel_by_pixel.2.1 .blank sprite 0x80000000 (-3) 0x7FFFFFFF rfl
  refine ⟨⟨rfl, rfl, rfl, rfl, rfl, completes⟩, ⟨after, collision, drawn, ?_⟩, refused, ?_,
    flag ?_⟩
  · exact (pixels 31 61).trans (by decide)
  · refine (glyph 30 0).trans ?_
    rw [dark]
    decide +kernel
  · rintro ⟨line, place, lit, _⟩
    rw [dark, pixel_blank] at lit
    cases lit

/-- A height past 32 bits is refused, so that nothing is drawn. -/
theorem tall_sprite_refused :
    let sprite : Sprite := Vector.replicate 16 0xFF
    Display.blank.draw sprite 0x80000000 0 0 = .error (.height 0x80000000) ∧
    ¬ ∃ after collision, Display.blank.draw sprite 0x80000000 0 0 = .ok (after, collision) ∧
      Display.blank.Drawn (fun r => sprite.get (Nibble.ofNat r)) 0x80000000 0 0 after ∧
      (collision = true ↔ Display.blank.PutOut after) := by
  intro sprite
  have refused : Display.blank.draw sprite 0x80000000 0 0 = .error (.height 0x80000000) := rfl
  refine ⟨refused, ?_⟩
  rintro ⟨after, collision, drawn, _⟩
  rw [refused] at drawn
  cases drawn

end Machine

end Chip8
