import Chip8.Proofs.Sprites
import Mathlib.Data.List.Perm.Basic

namespace Chip8

structure Drawing where
  sprite : Sprite
  height : Int
  column : Int
  row : Int
  deriving DecidableEq

namespace Drawing

structure Fits (g : Drawing) : Prop where
  height : Word.fitsSigned32 g.height = true
  column : Word.fitsSigned32 g.column = true
  row : Word.fitsSigned32 g.row = true

/-- Whether a bit of the sprite is set and within the rows that are drawn. -/
def Shows (g : Drawing) (r : Fin 16) (c : Fin 8) : Prop :=
  r.val < g.height ∧ (g.sprite.get r).toNat.testBit (7 - c.val) = true

instance (g : Drawing) (r : Fin 16) (c : Fin 8) : Decidable (g.Shows r c) :=
  inferInstanceAs (Decidable (_ ∧ _))

def line (g : Drawing) (r : Fin 16) : Fin screenHeight :=
  ⟨((g.row + r.val) % 32).toNat, by simp only [screenHeight]; omega⟩

def place (g : Drawing) (c : Fin 8) : Fin screenWidth :=
  ⟨((g.column + c.val) % 64).toNat, by simp only [screenWidth]; omega⟩

def layer (g : Drawing) : Display :=
  Display.layer g.sprite g.height g.column g.row

variable {g : Drawing}

theorem spot_eq (g : Drawing) (r : Fin 16) (c : Fin 8) :
    Display.spot g.column g.row (r, c) = (g.line r, g.place c) := by
  have rows : 0 < screenHeight := by decide
  have columns : 0 < screenWidth := by decide
  have lines := Display.val_around rows ⟨0x8000000, rfl⟩ g.row r.val
  have places := Display.val_around columns ⟨0x4000000, rfl⟩ g.column c.val
  apply Prod.ext <;> apply Fin.ext
  · exact (Int.toNat_natCast _).symm.trans (congrArg Int.toNat lines)
  · exact (Int.toNat_natCast _).symm.trans (congrArg Int.toNat places)

/-- A layer shows the bits of its sprite and nothing else. -/
theorem pixel_layer_iff {line : Fin screenHeight} {place : Fin screenWidth} :
    g.layer.pixel line place = true ↔
      ∃ r c, g.Shows r c ∧ g.line r = line ∧ g.place c = place := by
  have shows_bit : ∀ r c, g.layer.pixel (g.line r) (g.place c) = true ↔ g.Shows r c := by
    intro r c
    have shown := Display.pixel_layer_spot g.sprite g.height g.column g.row (r, c)
    rw [spot_eq] at shown
    rw [layer, shown, Display.inked, Bool.and_eq_true, decide_eq_true_iff, Shows]
  constructor
  · intro lit
    -- A pixel that no bit lies on is dark.
    by_cases missed : ∀ bit, Display.spot g.column g.row bit ≠ (line, place)
    · rw [layer, Display.pixel_layer_of_missed missed] at lit
      cases lit
    · obtain ⟨⟨r, c⟩, met⟩ := not_forall_not.mp missed
      obtain ⟨rfl, rfl⟩ := Prod.mk.inj ((spot_eq g r c).symm.trans met)
      exact ⟨r, c, (shows_bit r c).mp lit, rfl, rfl⟩
  · rintro ⟨r, c, set, rfl, rfl⟩
    exact (shows_bit r c).mpr set

def layers (drawings : List Drawing) : Display :=
  drawings.foldr (fun g below => g.layer.xor below) .blank

theorem layers_perm {drawings others : List Drawing} (same : others.Perm drawings) :
    layers others = layers drawings := by
  have : LeftCommutative fun (g : Drawing) below => g.layer.xor below := by
    constructor
    intro g g' below
    rw [← Display.xor_assoc, ← Display.xor_assoc, Display.xor_comm g.layer]
  exact same.foldr_eq _

end Drawing

namespace Display

variable {d : Display} {g : Drawing} {drawings others : List Drawing}

def put (d : Display) (g : Drawing) : Except DrawError (Display × Bool) :=
  d.draw g.sprite g.height g.column g.row

/-- Makes one drawing after another, up to the first that is refused. -/
def putAll (d : Display) : List Drawing → Except DrawError Display
  | [] => .ok d
  | g :: rest =>
    match d.put g with
    | .error e => .error e
    | .ok (after, _) => after.putAll rest

theorem put_eq_xor (fits : g.Fits) (d : Display) :
    d.put g = .ok (d.xor g.layer, d.overlaps g.layer) :=
  draw_fits fits.height fits.column fits.row d g.sprite

theorem putAll_eq_xor (fits : ∀ g ∈ drawings, g.Fits) (d : Display) :
    d.putAll drawings = .ok (d.xor (Drawing.layers drawings)) := by
  induction drawings generalizing d with
  | nil => exact congrArg Except.ok (xor_blank d).symm
  | cons g rest ih =>
    rw [List.forall_mem_cons] at fits
    simp only [putAll, put_eq_xor fits.1, ih fits.2, xor_assoc]
    rfl

theorem put_of_tall (tall : Word.fitsSigned32 g.height = false) (d : Display) :
    d.put g = .error (.height g.height) :=
  draw_of_tall tall d g.sprite g.column g.row

/-- Of drawings at places that fit, the first whose height does not fit is the one refused. -/
theorem putAll_of_tall
    (placed : ∀ b ∈ drawings, Word.fitsSigned32 b.column = true ∧ Word.fitsSigned32 b.row = true)
    (first : drawings.find? (fun b => !Word.fitsSigned32 b.height) = some g) (d : Display) :
    d.putAll drawings = .error (.height g.height) := by
  induction drawings generalizing d with
  | nil => cases first
  | cons b rest ih =>
    obtain ⟨⟨column, row⟩, later⟩ := List.forall_mem_cons.mp placed
    cases height : Word.fitsSigned32 b.height with
    | false =>
      rw [List.find?_cons, height] at first
      obtain rfl : b = g := Option.some.inj first
      simp only [putAll, put_of_tall height]
    | true =>
      rw [List.find?_cons, height] at first
      simp only [putAll, put_eq_xor ⟨height, column, row⟩]
      exact ih later first _

theorem overlaps_layer (d : Display) (g : Drawing) :
    d.overlaps g.layer = true ↔
      ∃ r c, g.Shows r c ∧ d.pixel (g.line r) (g.place c) = true := by
  rw [overlaps_iff]
  constructor
  · rintro ⟨line, column, lit, shown⟩
    obtain ⟨r, c, set, rfl, at_place⟩ :=
      (@Drawing.pixel_layer_iff g line ⟨column, lt_of_pixel lit⟩).mp shown
    refine ⟨r, c, set, ?_⟩
    rw [at_place]
    exact lit
  · rintro ⟨r, c, set, lit⟩
    exact ⟨g.line r, g.place c, lit, Drawing.pixel_layer_iff.mpr ⟨r, c, set, rfl, rfl⟩⟩

/-- A drawing on top of itself puts out what it had lit. -/
theorem overlaps_layer_again (d : Display) (g : Drawing) :
    (d.xor g.layer).overlaps g.layer = true ↔
      ∃ r c, g.Shows r c ∧ d.pixel (g.line r) (g.place c) = false := by
  rw [overlaps_layer]
  apply exists_congr
  intro r
  apply exists_congr
  intro c
  apply and_congr_right
  intro set
  have shown : g.layer.pixel (g.line r) (g.place c) = true :=
    Drawing.pixel_layer_iff.mpr ⟨r, c, set, rfl, rfl⟩
  rw [pixel_xor, shown, Bool.xor_true, Bool.not_eq_true']

/-- Drawings whose heights and places fit into 32 bits lead to the same display in every order,
and made once more, in any order again, they restore the display. A height that does not fit is
refused, alone and among others. Only the place modulo the size of the display matters. A drawing
collides if a bit that it shows lies on a lit pixel, and made again at once if one lay on a dark
pixel, so one of the two collides if it shows a bit at all. -/
theorem drawings_commute_and_cancel :
    (∀ (d : Display) (drawings : List Drawing), (∀ g ∈ drawings, g.Fits) →
      ∃ after, d.putAll drawings = .ok after ∧
        ∀ others : List Drawing, others.Perm drawings →
          d.putAll others = .ok after ∧ after.putAll others = .ok d) ∧
    (∀ (d : Display) (g : Drawing), Word.fitsSigned32 g.height = false →
      d.put g = .error (.height g.height) ∧
      ∀ drawings : List Drawing,
        (∀ b ∈ drawings, Word.fitsSigned32 b.column = true ∧ Word.fitsSigned32 b.row = true) →
        drawings.find? (fun b => !Word.fitsSigned32 b.height) = some g →
          d.putAll drawings = .error (.height g.height)) ∧
    (∀ (d : Display) (g : Drawing) (column row : Int), g.Fits →
      ({ g with column := column, row := row } : Drawing).Fits →
      column % 64 = g.column % 64 → row % 32 = g.row % 32 →
        d.put { g with column := column, row := row } = d.put g) ∧
    ∀ (d : Display) (g : Drawing), g.Fits →
      ∃ once first second, d.put g = .ok (once, first) ∧ once.put g = .ok (d, second) ∧
        (first = true ↔ ∃ r c, g.Shows r c ∧ d.pixel (g.line r) (g.place c) = true) ∧
        (second = true ↔ ∃ r c, g.Shows r c ∧ d.pixel (g.line r) (g.place c) = false) ∧
        (first = true ∨ second = true ↔ ∃ r c, g.Shows r c) := by
  refine ⟨?_, ?_, ?_, ?_⟩
  · intro d drawings fits
    refine ⟨_, putAll_eq_xor fits d, ?_⟩
    intro others same
    have fits' : ∀ g ∈ others, g.Fits := fun g hg => fits g (same.mem_iff.mp hg)
    rw [putAll_eq_xor fits', putAll_eq_xor fits', Drawing.layers_perm same, xor_cancel]
    exact ⟨rfl, rfl⟩
  · intro d g tall
    exact ⟨put_of_tall tall d, fun drawings placed first => putAll_of_tall placed first d⟩
  · intro d g column row fits fits' x y
    have same : Drawing.layer { g with column := column, row := row } = g.layer :=
      layer_congr g.sprite g.height x y
    rw [put_eq_xor fits', put_eq_xor fits, same]
  · intro d g fits
    refine ⟨_, _, _, put_eq_xor fits d, ?_, overlaps_layer d g, overlaps_layer_again d g, ?_⟩
    · rw [put_eq_xor fits, xor_cancel]
    · rw [overlaps_layer, overlaps_layer_again]
      constructor
      · rintro (⟨r, c, set, _⟩ | ⟨r, c, set, _⟩) <;> exact ⟨r, c, set⟩
      · rintro ⟨r, c, set⟩
        cases lit : d.pixel (g.line r) (g.place c) with
        | true => exact .inl ⟨r, c, set, lit⟩
        | false => exact .inr ⟨r, c, set, lit⟩

/-- A bar is drawn over a post where both wrap round the corner of the display, and then a drawing
whose height is too low is refused. -/
theorem drawings_commute_and_cancel_round_corner :
    let bar : Drawing := ⟨Vector.replicate 16 0xFF, 3, -4, 0x7FFFFFFF⟩
    let post : Drawing := ⟨Vector.replicate 16 0x80, 20, 0, -8⟩
    let moved : Drawing := { bar with column := 60, row := -1 }
    let low : Drawing := { bar with height := -0x80000001 }
    ((∀ g ∈ [bar, post, bar], g.Fits) ∧ moved.Fits ∧
      [post, bar, bar].Perm [bar, post, bar] ∧ 60 % 64 = bar.column % 64 ∧
      -1 % 32 = bar.row % 32 ∧ Word.fitsSigned32 low.height = false ∧
      (∀ b ∈ [bar, low, post],
        Word.fitsSigned32 b.column = true ∧ Word.fitsSigned32 b.row = true) ∧
      [bar, low, post].find? (fun b => !Word.fitsSigned32 b.height) = some low) ∧
    (∃ after, post.layer.putAll [bar, post, bar] = .ok after ∧
      post.layer.putAll [post, bar, bar] = .ok after ∧
      after.putAll [post, bar, bar] = .ok post.layer) ∧
    (post.layer.put low = .error (.height (-0x80000001)) ∧
      post.layer.putAll [bar, low, post] = .error (.height (-0x80000001))) ∧
    post.layer.put moved = post.layer.put bar ∧
    ∃ once, post.layer.put bar = .ok (once, true) ∧ once.put bar = .ok (post.layer, true) := by
  intro bar post moved low
  have bar_fits : bar.Fits := ⟨rfl, rfl, rfl⟩
  have post_fits : post.Fits := ⟨rfl, rfl, rfl⟩
  have moved_fits : moved.Fits := ⟨rfl, rfl, rfl⟩
  have fits : ∀ g ∈ [bar, post, bar], g.Fits := by
    simp only [List.forall_mem_cons, List.not_mem_nil, false_implies, implies_true, and_true]
    exact ⟨bar_fits, post_fits, bar_fits⟩
  have placed : ∀ b ∈ [bar, low, post],
      Word.fitsSigned32 b.column = true ∧ Word.fitsSigned32 b.row = true := by
    simp only [List.forall_mem_cons, List.not_mem_nil, false_implies, implies_true, and_true]
    exact ⟨⟨rfl, rfl⟩, ⟨rfl, rfl⟩, ⟨rfl, rfl⟩⟩
  have swapped : [post, bar, bar].Perm [bar, post, bar] := .swap bar post [bar]
  obtain ⟨orders, refuses, places, collides⟩ := drawings_commute_and_cancel
  obtain ⟨after, reached, same⟩ := orders post.layer _ fits
  obtain ⟨alone, among⟩ := refuses post.layer low rfl
  obtain ⟨once, first, second, drawn, again, lit, dark, _⟩ := collides post.layer bar bar_fits
  -- The column of the post lies under the fifth of the bar, and under no other.
  have went : first = true := lit.mpr ⟨1, 4, by decide +kernel⟩
  have came : second = true := dark.mpr ⟨1, 5, by decide +kernel⟩
  rw [went] at drawn
  rw [came] at again
  exact ⟨⟨fits, moved_fits, swapped, rfl, rfl, rfl, placed, rfl⟩, ⟨after, reached, same _ swapped⟩,
    ⟨alone, among _ placed rfl⟩, places post.layer bar 60 (-1) bar_fits moved_fits rfl rfl, once,
    drawn, again⟩

/-- A height past 32 bits is refused, so that drawing twice restores nothing. -/
theorem tall_drawing_not_cancelled :
    let tall : Drawing := ⟨Vector.replicate 16 0xFF, 0x80000000, 0, 0⟩
    Display.blank.putAll [tall] = .error (.height 0x80000000) ∧
    ¬ ∃ after, Display.blank.putAll [tall] = .ok after ∧
      after.putAll [tall] = .ok Display.blank := by
  intro tall
  have refused : Display.blank.putAll [tall] = .error (.height 0x80000000) := rfl
  refine ⟨refused, ?_⟩
  rintro ⟨after, drawn, _⟩
  rw [refused] at drawn
  cases drawn

end Display

end Chip8
