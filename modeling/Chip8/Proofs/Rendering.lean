import Chip8.Picture.Basic

namespace Chip8

namespace Demand

structure Fits (memory : Nat) (d : Demand) : Prop where
  sides : ∀ side ∈ d.asked.shape, side ≤ countLimit
  size : d.asked.extent ≤ countLimit
  room : Layout.total (d.asked :: d.held) ≤ memory

instance (memory : Nat) (d : Demand) : Decidable (d.Fits memory) :=
  decidable_of_iff
    ((∀ side ∈ d.asked.shape, side ≤ countLimit) ∧ d.asked.extent ≤ countLimit ∧
      Layout.total (d.asked :: d.held) ≤ memory)
    ⟨fun ⟨sides, size, room⟩ => ⟨sides, size, room⟩, fun ⟨sides, size, room⟩ => ⟨sides, size, room⟩⟩

/-- Whether every array on the way to a picture fits, each beside those that are held with it. -/
def FitsPicture (memory height width scale depth : Nat) : Prop :=
  ∀ d ∈ ofDisplay height width scale depth, d.Fits memory

instance (memory height width scale depth : Nat) :
    Decidable (FitsPicture memory height width scale depth) :=
  inferInstanceAs (Decidable (∀ d ∈ _, _))

variable {memory : Nat} {d : Demand} {demands others : List Demand}

theorem check_eq_ok_iff : d.check memory = .ok () ↔ d.Fits memory := by
  have sides : d.asked.shape.any (countLimit < ·) = true ↔
      ¬ ∀ side ∈ d.asked.shape, side ≤ countLimit := by
    simp
  unfold check
  split
  · rename_i large
    exact ⟨fun h => (by cases h), fun fits => absurd fits.sides (sides.mp large)⟩
  · rename_i counted
    split
    · rename_i large
      exact ⟨fun h => (by cases h), fun fits => absurd fits.size (Nat.not_le.mpr large)⟩
    · rename_i size
      split
      · rename_i full
        exact ⟨fun h => (by cases h), fun fits => absurd fits.room (Nat.not_le.mpr full)⟩
      · rename_i room
        have counted := Decidable.not_not.mp fun large => counted (sides.mpr large)
        exact ⟨fun _ => ⟨counted, Nat.not_lt.mp size, Nat.not_lt.mp room⟩, fun _ => rfl⟩

theorem checkAll_eq_ok_iff :
    checkAll memory demands = .ok () ↔ ∀ d ∈ demands, d.Fits memory := by
  induction demands with
  | nil => simp [checkAll]
  | cons d rest ih =>
    rw [List.forall_mem_cons, ← check_eq_ok_iff, ← ih, checkAll]
    cases d.check memory with
    | error e => simp
    | ok => simp

theorem checkAll_append :
    checkAll memory (demands ++ others) =
      (do checkAll memory demands; checkAll memory others) := by
  induction demands with
  | nil => rfl
  | cons d rest ih =>
    rw [List.cons_append, checkAll, checkAll, ih]
    cases d.check memory <;> rfl

end Demand

namespace Cells

def ofRows (rows : List (List Int)) : Cells :=
  .group (rows.map fun row => .group (row.map .number))

/-- Which pixels are lit: those that are not zero. -/
def lit (rows : List (List Int)) : List (List Bool) :=
  rows.map fun row => row.map (· != 0)

variable {rows : List (List Int)} {width : Nat}

theorem depth_row (row : List Int) : (group (row.map number)).depth = 1 := by
  induction row with
  | nil => simp [depth]
  | cons value rest ih => simp [depth, ih]

theorem depth_ofRows (row : List Int) (rows : List (List Int)) :
    (ofRows (row :: rows)).depth = 2 := by
  have outer : ∀ first rest, (ofRows (first :: rest)).depth = max 2 (ofRows rest).depth := by
    intro first rest
    rw [ofRows, List.map_cons, depth, depth_row]
    rfl
  induction rows generalizing row with
  | nil => rw [outer, ofRows, List.map_nil, depth, Nat.max_eq_left (Nat.le_succ 1)]
  | cons next rest ih => rw [outer, ih, Nat.max_self]

/-- The shape of a single list: its length, and the shape of its items. -/
theorem commonShape_group (depth : Nat) (items : List Cells) :
    commonShape (depth + 1) [.group items] =
      (items.length :: (commonShape depth items).1, (commonShape depth items).2) := by
  simp [commonShape, commonLength, contents]

theorem shape_ofRows (nonempty : rows ≠ []) (even : ∀ row ∈ rows, row.length = width) :
    (ofRows rows).shape = .ok [rows.length, width] := by
  obtain ⟨row, rest, rfl⟩ := List.exists_cons_of_ne_nil nonempty
  obtain ⟨rfl, others⟩ := List.forall_mem_cons.mp even
  have lengths : commonLength ((row :: rest).map fun row => group (row.map number)) =
      some row.length := by
    simpa [commonLength] using others
  have inner : commonShape 1 ((row :: rest).map fun row => group (row.map number)) =
      ([row.length], false) := by
    simp only [commonShape, lengths]
  rw [shape, depth_ofRows, ofRows, commonShape_group, inner, List.length_map]
  rfl

theorem row?_numbers (row : List Int) :
    row? (group (row.map number)) = some (row.map (· != 0)) := by
  rw [row?, List.mapM_map]
  exact List.mapM_pure

theorem rows_ofRows (nonempty : rows ≠ []) (even : ∀ row ∈ rows, row.length = width) :
    (ofRows rows).rows = .ok (lit rows) := by
  have read : (ofRows rows).rows? = some (lit rows) := by
    rw [ofRows, rows?, List.mapM_map, Function.comp_def]
    simp only [row?_numbers]
    exact List.mapM_pure
  rw [Cells.rows, shape_ofRows nonempty even, read]

end Cells

namespace Picture

/-- The cell of a row and a place in it, counted from the top and from the left. -/
def cell? {α : Type} (rows : List (List α)) (i j : Nat) : Option α :=
  rows[i]?.bind (·[j]?)

def numbers (c : Colour) : List Int :=
  c.map fun byte => byte.toNat

def Image.cell? (image : Image) (i j : Nat) : Option (List Int) :=
  (Picture.cell? image.rows i j).map numbers

/-- Which blocks of a picture show a colour, by the look of one point of each block. -/
def Image.readBack (image : Image) (scale : Nat) (on : List Int) (point : Nat → Nat → Nat × Nat) :
    List (List Bool) :=
  (List.range (image.rows.length / scale)).map fun r =>
    (List.range (image.width / scale)).map fun c =>
      image.cell? (r * scale + (point r c).1) (c * scale + (point r c).2) == some on

def lines (shown : String) : List (List Char) :=
  shown.toList.splitOn '\n'

/-- Which places of a text show a glyph, line by line. -/
def readText (on : Char) (shown : String) : List (List Bool) :=
  (lines shown).map fun line => line.map (· == on)

/-- Where every item is repeated the same number of times, division finds the item of a place. -/
theorem getElem?_stretch {α β : Type} (f : α → β) {scale : Nat} (positive : 0 < scale)
    (items : List α) (i : Nat) :
    (items.flatMap fun x => List.replicate scale (f x))[i]? = (items[i / scale]?).map f := by
  induction items generalizing i with
  | nil => simp
  | cons x rest ih =>
    rw [List.flatMap_cons]
    -- A place is within the first block, or it is counted from the second block on.
    by_cases first : i < scale
    · simp [List.getElem?_append, first, Nat.div_eq_of_lt first]
    · obtain ⟨j, rfl⟩ := Nat.exists_eq_add_of_le (Nat.le_of_not_lt first)
      rw [List.getElem?_append_right (by simp), List.length_replicate, Nat.add_sub_cancel_left, ih,
        Nat.add_div_left j positive, List.getElem?_cons_succ]

theorem length_stretch {α β : Type} (f : α → β) (scale : Nat) (items : List α) :
    (items.flatMap fun x => List.replicate scale (f x)).length = items.length * scale := by
  simp only [List.length_flatMap, List.length_replicate, List.map_const', List.sum_replicate_nat]

variable {scale : Nat} {palette : Palette} {rows : List (List Bool)} {width : Nat}

/-- A point of a picture shows the pixel that division by the scale leads to. -/
theorem cell?_paint (positive : 0 < scale) (palette : Palette) (rows : List (List Bool))
    (i j : Nat) :
    (paint scale palette rows).cell? i j = (cell? rows (i / scale) (j / scale)).map fun lit =>
      numbers (if lit then palette.on else palette.off) := by
  simp only [Image.cell?, cell?, paint]
  rw [getElem?_stretch _ positive]
  cases rows[i / scale]? with
  | none => rfl
  | some row =>
    simp only [Option.map_some, Option.bind_some, getElem?_stretch _ positive, Option.map_map]
    rfl

theorem length_paint (scale : Nat) (palette : Palette) (rows : List (List Bool)) :
    (paint scale palette rows).rows.length = rows.length * scale :=
  length_stretch _ scale rows

theorem length_of_mem_paint (even : ∀ row ∈ rows, row.length = width) {painted : List Colour}
    (shown : painted ∈ (paint scale palette rows).rows) : painted.length = width * scale := by
  obtain ⟨row, hrow, repeated⟩ := List.mem_flatMap.mp shown
  rw [List.eq_of_mem_replicate repeated, length_stretch, even row hrow]

theorem width_paint (nonempty : rows ≠ []) (even : ∀ row ∈ rows, row.length = width) :
    (paint scale palette rows).width = width * scale := by
  obtain ⟨row, rest, rfl⟩ := List.exists_cons_of_ne_nil nonempty
  rw [← even row List.mem_cons_self]
  rfl

/-- Rows are made of their entries. -/
theorem rows_of_entries (even : ∀ row ∈ rows, row.length = width) :
    ((List.range rows.length).map fun r => (List.range width).map fun c =>
      cell? rows r c == some true) = rows := by
  apply List.ext_getElem
  · simp
  · intro r _ inside
    have long : rows[r].length = width := even _ (List.getElem_mem inside)
    apply List.ext_getElem
    · simp [long]
    · intro c _ within
      simp [cell?, inside, within]

theorem cell?_lit (pixels : List (List Int)) (r c : Nat) :
    cell? (Cells.lit pixels) r c = (cell? pixels r c).map (· != 0) := by
  rw [cell?, Cells.lit, List.getElem?_map]
  cases same : pixels[r]? with
  | none => simp [cell?, same]
  | some row => simp [cell?, same]

theorem readBack_paint (positive : 0 < scale) (nonempty : rows ≠ [])
    (even : ∀ row ∈ rows, row.length = width) (differ : numbers palette.on ≠ numbers palette.off)
    {point : Nat → Nat → Nat × Nat}
    (within : ∀ r c, (point r c).1 < scale ∧ (point r c).2 < scale) :
    (paint scale palette rows).readBack scale (numbers palette.on) point = rows := by
  have block : ∀ k a, a < scale → (k * scale + a) / scale = k := by
    intro k a inside
    rw [Nat.mul_comm, Nat.mul_add_div positive, Nat.div_eq_of_lt inside, Nat.add_zero]
  have look : ∀ r c,
      ((paint scale palette rows).cell? (r * scale + (point r c).1) (c * scale + (point r c).2) ==
        some (numbers palette.on)) = (cell? rows r c == some true) := by
    intro r c
    rw [cell?_paint positive, block r _ (within r c).1, block c _ (within r c).2]
    rcases cell? rows r c with _ | _ | _
    · rfl
    · simpa using differ.symm
    · simp
  simp only [Image.readBack, look]
  rw [length_paint, width_paint nonempty even, Nat.mul_div_cancel _ positive,
    Nat.mul_div_cancel _ positive]
  exact rows_of_entries even

theorem colour_ok {c : List Int} (bytes : ∀ v ∈ c, 0 ≤ v ∧ v < 256) :
    ∃ made, colour c = .ok made ∧ numbers made = c := by
  induction c with
  | nil => exact ⟨[], rfl, rfl⟩
  | cons v rest ih =>
    obtain ⟨byte, later⟩ := List.forall_mem_cons.mp bytes
    obtain ⟨made, result, same⟩ := ih later
    refine ⟨UInt8.ofNat v.toNat :: made, ?_, ?_⟩
    · rw [colour, if_pos byte, result]
      rfl
    · have read : ((UInt8.ofNat v.toNat).toNat : Int) = v := by
        rw [UInt8.toNat_ofNat']
        omega
      change ((UInt8.ofNat v.toNat).toNat : Int) :: numbers made = v :: rest
      rw [read, same]

theorem glyph_singleton {c : Char} (written : c ≠ Char.ofNat 0) :
    glyph (String.singleton c) = [c] := by
  have shown : c.toNat ≠ 0 := by
    intro zero
    exact written (by rw [← zero, Char.ofNat_toNat])
  simp [glyph, shown]

/-- The lines of a text are the rows, with a glyph for each pixel. -/
theorem lines_text {on off : Char} (nonempty : rows ≠ [])
    (plain : ∀ c ∈ [on, off], c ≠ '\n' ∧ c ≠ Char.ofNat 0) :
    lines (text (String.singleton on) (String.singleton off) rows) =
      rows.map fun row => row.map fun lit => if lit then on else off := by
  obtain ⟨on_line, on_written⟩ := plain on (by simp)
  obtain ⟨off_line, off_written⟩ := plain off (by simp)
  have glyphs : (textRows (String.singleton on) (String.singleton off) rows).map String.toList =
      rows.map fun row => row.map fun lit => if lit then on else off := by
    rw [textRows, List.map_map]
    refine List.map_congr_left fun row _ => ?_
    rw [glyph_singleton on_written, glyph_singleton off_written, Function.comp_apply,
      String.toList_ofList, List.map_eq_flatMap]
    congr 1
    funext lit
    cases lit <;> rfl
  rw [lines, text, String.toList_intercalate, glyphs]
  refine List.splitOn_intercalate '\n' ?_ (by simpa using nonempty)
  intro line hline broken
  obtain ⟨row, _, rfl⟩ := List.mem_map.mp hline
  obtain ⟨lit, _, same⟩ := List.mem_map.mp broken
  cases lit with
  | true => exact on_line same
  | false => exact off_line same

theorem readText_text {on off : Char} (nonempty : rows ≠ []) (differ : on ≠ off)
    (plain : ∀ c ∈ [on, off], c ≠ '\n' ∧ c ≠ Char.ofNat 0) :
    readText on (text (String.singleton on) (String.singleton off) rows) = rows := by
  have told : ∀ lit : Bool, ((if lit then on else off) == on) = lit := by
    intro lit
    cases lit with
    | true => simp
    | false => simpa using differ.symm
  rw [readText, lines_text nonempty plain]
  simp only [List.map_map, Function.comp_def, told, List.map_id']

section Render

variable {pixels : List (List Int)} {on off : List Int} {on' off' : Colour} {memory : Nat}
  {demands : List Demand}

theorem room_of_fits (fits : ∀ d ∈ demands, d.Fits memory) : room memory demands = .ok () := by
  rw [room, Demand.checkAll_eq_ok_iff.mpr fits]
  rfl

theorem room_of_not_fits (large : ¬ ∀ d ∈ demands, d.Fits memory) :
    ∃ e, room memory demands = .error (.room e) := by
  cases met : Demand.checkAll memory demands with
  | error e =>
    refine ⟨e, ?_⟩
    rw [room, met]
    rfl
  | ok => exact absurd (Demand.checkAll_eq_ok_iff.mp met) large

theorem room_append (memory : Nat) (demands others : List Demand) :
    room memory (demands ++ others) = (do room memory demands; room memory others) := by
  unfold room
  rw [Demand.checkAll_append]
  cases Demand.checkAll memory demands <;> rfl

/-- Even rows are painted as they are, if everything on the way to the picture fits. -/
theorem render_ofRows (memory : Nat) (nonempty : pixels ≠ [])
    (even : ∀ row ∈ pixels, row.length = width) (positive : 1 ≤ scale)
    (on_made : colour on = .ok on') (off_made : colour off = .ok off') :
    render memory scale on off (.ofRows pixels) =
      (room memory (Demand.ofDisplay pixels.length width scale off.length)).map fun _ =>
        paint scale ⟨on', off'⟩ (Cells.lit pixels) := by
  have given : scaleOf scale = .ok scale := by
    rw [scaleOf, if_neg (by omega)]
    rfl
  rw [render, Cells.shape_ofRows nonempty even, Cells.rows_ofRows nonempty even, given, on_made,
    off_made, Demand.ofDisplay, room_append, room_append]
  -- The demands come in three parts, of which the first that is refused ends the work.
  change (do
    room memory (Demand.ofPalette off.length)
    room memory (Demand.ofBlock scale off.length [pixels.length, width])
    room memory (Demand.ofPicture pixels.length width scale off.length)
    return paint scale ⟨on', off'⟩ (Cells.lit pixels)) = _
  cases room memory (Demand.ofPalette off.length) with
  | error e => rfl
  | ok =>
    cases room memory (Demand.ofBlock scale off.length [pixels.length, width]) with
    | error e => rfl
    | ok => rfl

theorem render_of_fits (nonempty : pixels ≠ []) (even : ∀ row ∈ pixels, row.length = width)
    (positive : 1 ≤ scale) (on_made : colour on = .ok on') (off_made : colour off = .ok off')
    (fits : Demand.FitsPicture memory pixels.length width scale off.length) :
    render memory scale on off (.ofRows pixels) =
      .ok (paint scale ⟨on', off'⟩ (Cells.lit pixels)) := by
  rw [render_ofRows memory nonempty even positive on_made off_made, room_of_fits fits]
  rfl

theorem render_of_not_fits (nonempty : pixels ≠ []) (even : ∀ row ∈ pixels, row.length = width)
    (positive : 1 ≤ scale) (on_made : colour on = .ok on') (off_made : colour off = .ok off')
    (large : ¬ Demand.FitsPicture memory pixels.length width scale off.length) :
    ∃ e, render memory scale on off (.ofRows pixels) = .error (.room e) := by
  obtain ⟨e, refused⟩ := room_of_not_fits large
  refine ⟨e, ?_⟩
  rw [render_ofRows memory nonempty even positive on_made off_made, refused]
  rfl

/-- A display of even rows shows in its picture and in its text, and in both of them its lit pixels
can be told from the others. Its picture at a scale has a block for each pixel, so that the colour
of a point is that of the pixel which division by the scale leads to, and any point of a block tells
whether its pixel is lit. There is such a picture unless there is no room for it. Its text has a
line for each row and a character for each pixel. -/
theorem renderings_agree (nonempty : pixels ≠ []) (even : ∀ row ∈ pixels, row.length = width) :
    (∀ (memory scale : Nat) (on off : List Int), 1 ≤ scale → on.length = off.length →
      (∀ v ∈ on ++ off, 0 ≤ v ∧ v < 256) →
      (Demand.FitsPicture memory pixels.length width scale on.length →
        ∃ image, render memory scale on off (.ofRows pixels) = .ok image ∧
          (image.rows.length = pixels.length * scale ∧ image.width = width * scale ∧
            image.depth = on.length ∧ ∀ row ∈ image.rows, row.length = width * scale) ∧
          (∀ i j, image.cell? i j = (cell? pixels (i / scale) (j / scale)).map fun value =>
            if value ≠ 0 then on else off) ∧
          (on ≠ off → ∀ point : Nat → Nat → Nat × Nat,
            (∀ r c, (point r c).1 < scale ∧ (point r c).2 < scale) →
            image.readBack scale on point = Cells.lit pixels)) ∧
      (¬ Demand.FitsPicture memory pixels.length width scale on.length →
        ∃ e, render memory scale on off (.ofRows pixels) = .error (.room e))) ∧
    ∀ on off : Char, on ≠ off → (∀ c ∈ [on, off], c ≠ '\n' ∧ c ≠ Char.ofNat 0) →
      ∃ shown,
        (Cells.ofRows pixels).rows.map (text (String.singleton on) (String.singleton off)) =
          .ok shown ∧
        (lines shown).length = pixels.length ∧ (∀ line ∈ lines shown, line.length = width) ∧
        readText on shown = Cells.lit pixels := by
  have lit_nonempty : Cells.lit pixels ≠ [] := by simpa [Cells.lit] using nonempty
  have lit_even : ∀ row ∈ Cells.lit pixels, row.length = width := by
    simpa [Cells.lit] using even
  refine ⟨?_, ?_⟩
  · intro memory scale on off positive equal bytes
    obtain ⟨on_bytes, off_bytes⟩ := List.forall_mem_append.mp bytes
    obtain ⟨on', on_made, rfl⟩ := colour_ok on_bytes
    obtain ⟨off', off_made, rfl⟩ := colour_ok off_bytes
    rw [equal]
    refine ⟨fun fits => ?_, render_of_not_fits nonempty even positive on_made off_made⟩
    refine ⟨_, render_of_fits nonempty even positive on_made off_made fits,
      ⟨?_, width_paint lit_nonempty lit_even, ?_, ?_⟩, ?_, ?_⟩
    · rw [length_paint, Cells.lit, List.length_map]
    · simp [numbers, paint]
    · intro row hrow
      exact length_of_mem_paint lit_even hrow
    · intro i j
      rw [cell?_paint positive, cell?_lit, Option.map_map]
      congr 1
      funext value
      by_cases zero : value = 0 <;> simp [zero]
    · intro differ point within
      exact readBack_paint positive lit_nonempty lit_even differ within
  · intro on off differ plain
    refine ⟨_, by rw [Cells.rows_ofRows nonempty even]; rfl, ?_, ?_,
      readText_text lit_nonempty differ plain⟩
    · rw [lines_text lit_nonempty plain, List.length_map, Cells.lit, List.length_map]
    · rw [lines_text lit_nonempty plain]
      simpa using lit_even

/-- A picture of a display with a negative pixel, read back from points all over its blocks, and
refused where a single byte is missing. -/
theorem renderings_agree_on_two_rows :
    let pixels : List (List Int) := [[0, 2, 0], [-1, 0, 0]]
    let lit := [[false, true, false], [true, false, false]]
    let point : Nat → Nat → Nat × Nat := fun r c => (2 - r, (r + c) % 3)
    (pixels ≠ [] ∧ (∀ row ∈ pixels, row.length = 3) ∧ Demand.FitsPicture 672 2 3 3 3 ∧
      ¬ Demand.FitsPicture 671 2 3 3 3) ∧
    (∃ image, render 672 3 [255, 176, 0] [0, 0, 64] (.ofRows pixels) = .ok image ∧
      image.rows.length = 6 ∧ image.cell? 5 2 = some [255, 176, 0] ∧
      image.readBack 3 [255, 176, 0] point = lit) ∧
    (∃ e, render 671 3 [255, 176, 0] [0, 0, 64] (.ofRows pixels) = .error (.room e)) ∧
    ∃ shown, (Cells.ofRows pixels).rows.map (text (String.singleton '#') (String.singleton '.')) =
        .ok shown ∧ readText '#' shown = lit := by
  intro pixels lit point
  have nonempty : pixels ≠ [] := by decide
  have even : ∀ row ∈ pixels, row.length = 3 := by decide
  have room : Demand.FitsPicture 672 2 3 3 3 := by decide
  have full : ¬ Demand.FitsPicture 671 2 3 3 3 := by decide
  obtain ⟨pictures, texts⟩ := renderings_agree nonempty even
  obtain ⟨image, made, size, points, back⟩ := (pictures 672 3 [255, 176, 0] [0, 0, 64] (by decide)
    (by decide) (by decide)).1 room
  have refused := (pictures 671 3 [255, 176, 0] [0, 0, 64] (by decide) (by decide) (by decide)).2
    full
  have plain : ∀ c ∈ ['#', '.'], c ≠ '\n' ∧ c ≠ Char.ofNat 0 := by simp
  obtain ⟨shown, written, _, _, read⟩ := texts '#' '.' (by decide) plain
  have within : ∀ r c, (point r c).1 < 3 ∧ (point r c).2 < 3 :=
    fun r c => ⟨by simp only [point]; omega, Nat.mod_lt _ (by decide)⟩
  exact ⟨⟨nonempty, even, room, full⟩,
    ⟨image, made, size.1, points 5 2, back (by decide) point within⟩, refused, shown, written, read⟩

/-- At a scale that no length may have nothing is painted, whatever memory there is. -/
theorem giant_scale_refused :
    let display := Cells.ofRows [[1]]
    render Demand.countLimit 0x8000000000000000 [0, 255, 0] [0, 0, 0] display =
      .error (.room .side) ∧
    ¬ ∃ memory image,
      render memory 0x8000000000000000 [0, 255, 0] [0, 0, 0] display = .ok image := by
  intro display
  have even : ∀ row ∈ [[(1 : Int)]], row.length = 1 := by decide
  have positive : 1 ≤ 0x8000000000000000 := by decide
  refine ⟨(render_ofRows Demand.countLimit (by decide) even positive rfl rfl).trans rfl, ?_⟩
  rintro ⟨memory, image, painted⟩
  have large : ¬ Demand.FitsPicture memory 1 1 0x8000000000000000 3 := by
    intro fits
    have block := fits _ (List.mem_cons_of_mem _ List.mem_cons_self)
    exact absurd (block.sides 0x8000000000000000 List.mem_cons_self) (by decide)
  obtain ⟨e, refused⟩ := render_of_not_fits (by decide) even positive
    (rfl : colour [0, 255, 0] = _) (rfl : colour [0, 0, 0] = _) large
  cases painted.symm.trans refused

end Render

end Picture

end Chip8
