import Chip8.Proofs.Halting
import Chip8.Proofs.KeyWait
import Chip8.Proofs.Loading

namespace Chip8

open Instruction

namespace Assembly

variable {cells : List Int} {i : Nat}

theorem length_ofCells (cells : List Int) : (ofCells cells).length = cells.length := by
  fun_induction ofCells cells with
  | case1 | case2 => rfl
  | case3 high low rest ih => rw [List.length_cons, ih]; rfl

theorem getElem?_ofCells {high low : Int} (first : cells[i]? = some high)
    (second : cells[i + 1]? = some low) :
    (ofCells cells)[i]? = some (some (textOfInt (joinCells high low))) := by
  fun_induction ofCells cells generalizing i with
  | case1 => simp at first
  | case2 => simp at second
  | case3 one two rest ih =>
    cases i with
    | zero =>
      cases first
      cases second
      rfl
    | succ i => exact ih first second

theorem getElem?_ofCells_last (last : i + 1 = cells.length) : (ofCells cells)[i]? = some none := by
  fun_induction ofCells cells generalizing i with
  | case1 => simp at last
  | case2 =>
    simp only [List.length_singleton, Nat.add_eq_right] at last
    subst last
    rfl
  | case3 one two rest ih =>
    cases i with
    | zero => simp at last
    | succ i => exact ih (Nat.succ.inj last)

theorem joinCells_bytes (high low : UInt8) :
    joinCells high.toNat low.toNat = (Word.ofBytes high low).toNat := by
  rw [Word.toNat_ofBytes]
  rfl

theorem size_ofMemory (m : Memory) : (ofMemory m).texts.size = memorySize := by
  simp [ofMemory, length_ofCells]

theorem texts_ofMemory (m : Memory) {a : Nat} (inside : a + 1 < memorySize) :
    (ofMemory m).texts[a]? = some (some (textOfInt (m.word 0 a).toNat)) := by
  have cell : ∀ b, b < memorySize →
      (m.cells.toList.map fun b => (b.toNat : Int))[b]? = some ((m.read 0 b).toNat : Int) := by
    intro b hb
    simp [Memory.read_of_lt hb, hb]
  have first := cell a (by omega)
  have second := cell (a + 1) inside
  rw [ofMemory, List.getElem?_toArray, getElem?_ofCells first second, joinCells_bytes, Memory.word]

theorem texts_ofMemory_last (m : Memory) : (ofMemory m).texts[0xFFF]? = some none := by
  rw [ofMemory, List.getElem?_toArray, getElem?_ofCells_last]
  simp

/-- The assembly of a memory shows the word that a fetch records, and nothing where it faults. -/
theorem texts_fetch (m : Machine) {pc : UInt16} (inside : pc.toNat < memorySize) :
    let fetched := ({ m with pc := pc } : Machine).fetch
    (ofMemory m.memory).texts[pc.toNat]? =
      some (if pc = 0xFFF then none else some (textOfInt fetched.value.opcode.toNat)) ∧
    (Machine.Faults fetched ↔ (ofMemory m.memory).texts[pc.toNat]? = some none) := by
  intro fetched
  let there : Machine := { m with pc := pc }
  by_cases outside : memorySize ≤ there.pc.toNat + 1
  · have last : pc.toNat = 0xFFF := Nat.le_antisymm (Nat.le_of_lt_succ inside)
      (Nat.le_of_succ_le_succ outside)
    have lost : fetched = _ := there.fetchOn_outside outside
    have here : pc = 0xFFF := UInt16.toNat_inj.mp last
    rw [last, texts_ofMemory_last, if_pos here, lost]
    exact ⟨rfl, iff_of_true (Machine.faults_halt _) rfl⟩
  · have whole : pc.toNat + 1 < memorySize := Nat.lt_of_not_le outside
    have read : fetched = .silent (there.fetchedOn 0) := Machine.fetchOn_inside whole
    have before : pc ≠ 0xFFF := by
      rintro rfl
      exact absurd whole (by decide)
    rw [texts_ofMemory m.memory whole, if_neg before, read]
    exact ⟨rfl, iff_of_false (by simp [Machine.Faults]) (by simp)⟩

theorem text?_ofMemory (m : Memory) (a : Int) :
    (ofMemory m).text? a =
      if 0 ≤ a ∧ a ≤ 0xFFE then some (textOfInt (m.word 0 a.toNat).toNat) else none := by
  have size : memorySize = 4096 := rfl
  by_cases below : a < 0
  · rw [text?, if_pos below, if_neg (by omega)]
  · rw [text?, if_neg below]
    by_cases inside : a ≤ 0xFFE
    · rw [texts_ofMemory m (by omega), if_pos (by omega)]
      rfl
    · rw [if_neg (by omega)]
      by_cases last : a = 0xFFF
      · subst last
        exact congrArg Option.join (texts_ofMemory_last m)
      · have none : (ofMemory m).texts[a.toNat]? = none := by
          rw [Array.getElem?_eq_none_iff, size_ofMemory]
          omega
        rw [none]
        rfl

end Assembly

namespace Listing

/-- The line of an address, with the mark of the current one where it is the program counter. -/
def line (pc address : Int) (text : String) : String :=
  (if address = pc then "->  " else "") ++ Hex.marked address ++ ": " ++ text

def Marked (line : String) : Prop :=
  ['-', '>'] <+: line.toList

instance : DecidablePred Marked :=
  fun _ => inferInstanceAs (Decidable (_ <+: _))

variable {l : Listing} {pc a : Int} {text : String}

theorem marked_line : Marked (line pc a text) ↔ a = pc := by
  by_cases here : a = pc <;> simp [Marked, line, here, Hex.marked]

theorem mem_addresses :
    a ∈ l.addresses ↔ l.pc - l.window / 2 ≤ a ∧ a < l.pc + l.window / 2 := by
  simp only [addresses, List.mem_map, List.mem_range,
    Int.fdiv_eq_ediv_of_nonneg l.window (by decide : (0 : Int) ≤ 2)]
  constructor
  · rintro ⟨i, hi, rfl⟩
    omega
  · intro within
    exact ⟨(a - (l.pc - l.window / 2)).toNat, by omega, by omega⟩

theorem addresses_sorted (l : Listing) : l.addresses.Pairwise (· < ·) := by
  rw [addresses, List.pairwise_map]
  exact List.pairwise_lt_range.imp fun h => by omega

theorem line?_eq (l : Listing) (a : Int) :
    l.line? a = if a % 2 = l.pc % 2 then (l.texts a).map (line l.pc a) else none := by
  unfold line? line
  congr 2
  funext text
  by_cases here : a = l.pc <;> simp [here, toString]

/-- A listing of a memory has one line for each address of the window that has the parity of the
program counter and a whole word, in rising order. -/
theorem lines_ofMemory (m : Memory) (pc window : Int) :
    ∃ addresses : List Int, addresses.Pairwise (· < ·) ∧
      (∀ a, a ∈ addresses ↔ 0 ≤ a ∧ a ≤ 0xFFE ∧ a % 2 = pc % 2 ∧
        pc - window / 2 ≤ a ∧ a < pc + window / 2) ∧
      lines ⟨(Assembly.ofMemory m).text?, pc, window⟩ =
        addresses.map fun a => line pc a (textOfInt (m.word 0 a.toNat).toNat) := by
  let l : Listing := ⟨(Assembly.ofMemory m).text?, pc, window⟩
  refine ⟨l.addresses.filter fun a => (0 ≤ a ∧ a ≤ 0xFFE) ∧ a % 2 = pc % 2, ?_, ?_, ?_⟩
  · exact (addresses_sorted l).filter _
  · intro a
    rw [List.mem_filter, mem_addresses, decide_eq_true_iff]
    tauto
  · rw [lines, ← List.filterMap_eq_map, List.filterMap_filter]
    apply List.filterMap_congr
    intro a _
    simp only [line?_eq, Assembly.text?_ofMemory]
    by_cases parity : a % 2 = pc % 2 <;> by_cases inside : 0 ≤ a ∧ a ≤ 0xFFE <;>
      simp [parity, inside]

theorem filter_marked {addresses : List Int} (sorted : addresses.Pairwise (· < ·)) (pc : Int)
    (text : Int → String) :
    (addresses.map fun a => line pc a (text a)).filter Marked =
      if pc ∈ addresses then [line pc pc (text pc)] else [] := by
  have once : addresses.filter (fun a => decide (a = pc)) =
      if pc ∈ addresses then [pc] else [] := by
    have distinct : addresses.Nodup := sorted.imp fun h => by omega
    rw [List.filter_eq, distinct.count]
    split <;> rfl
  simp only [List.filter_map, Function.comp_def, marked_line, once]
  split <;> rfl

end Listing

namespace Session

open Machine

variable {config : Config} {s began opened : Session} {r : Request}

/-- Whether a session is the one right after the last of some requests that loaded a program or
reset the machine. -/
def LastStart (opened : Session) (earlier : List Request) (began : Session) : Prop :=
  ∃ before r since, earlier = before ++ r :: since ∧ r.restarts (opened.after before) = true ∧
    began = ((opened.after before).handle r).session ∧ began.Undisturbed since

theorem undisturbed_concat {requests : List Request} (h : s.Undisturbed requests)
    (kept : r.restarts (s.after requests) = false) : s.Undisturbed (requests ++ [r]) := by
  induction requests generalizing s with
  | nil => exact ⟨kept, trivial⟩
  | cons first rest ih => exact ⟨h.1, ih h.2 kept⟩

/-- Only loads and resets change the program and its assembly. -/
theorem handle_keeps (kept : r.restarts s = false) :
    (s.handle r).session.program = s.program ∧ (s.handle r).session.assembly = s.assembly := by
  cases s.course r with
  | run n ran reply _ _ _ _ result =>
    rw [result]
    exact ⟨rfl, rfl⟩
  | restart _ asked _ _ _ _ => simp [kept] at asked
  | touch mode keypad redraw _ result _ =>
    rw [result]
    exact ⟨rfl, rfl⟩

/-- A load or a reset that leaves a program loaded shows the memory that it leaves. -/
theorem Settled.restart_assembly (h : s.Settled config) (asked : r.restarts s = true)
    (loaded : (s.handle r).session.isLoaded = true) :
    (s.handle r).session.assembly = .ofMemory (s.handle r).session.machine.memory := by
  rcases restart_cases asked with ⟨program, result⟩ | ⟨reload, rfl⟩
  · rw [result]
  · cases reload with
    | false => cases loaded
    | true =>
      obtain ⟨program, held⟩ := Option.isSome_iff_exists.mp loaded
      have held : s.program = some program := held
      have shown := h.assembly program held
      have booted : (s.handle (.reset true)).session.machine =
          (boot s.machine.random program).value := by
        simp only [Session.handle, Session.reset, held, ↓reduceIte, boot, Machine.reset]
      rw [booted]
      rw [← boot_memory s.machine.random program, Assembly.ofImage_cells] at shown
      exact (Except.ok.inj shown).symm

/-- A session with a program was started, by a load or a reset, and its assembly shows the memory
that it was started with. -/
theorem Settled.exists_lastStart (h : opened.Settled config) (idle : opened.isLoaded = false)
    (earlier : List Request) (loaded : (opened.after earlier).isLoaded = true) :
    ∃ began, opened.LastStart earlier began ∧
      (opened.after earlier).assembly = .ofMemory began.machine.memory := by
  induction earlier using List.reverseRecOn with
  | nil => exact absurd loaded (Bool.eq_false_iff.mp idle)
  | append_singleton earlier r ih =>
    rw [after_concat] at loaded ⊢
    cases asked : r.restarts (opened.after earlier) with
    | true =>
      exact ⟨_, ⟨earlier, r, [], rfl, asked, rfl, trivial⟩,
        (h.after earlier).restart_assembly asked loaded⟩
    | false =>
      obtain ⟨program, assembly⟩ := handle_keeps asked
      rw [isLoaded, program] at loaded
      obtain ⟨began, ⟨before, first, since, rfl, restarted, rfl, kept⟩, shown⟩ := ih loaded
      have reached : opened.after (before ++ first :: since) =
          ((opened.after before).handle first).session.after since := List.foldl_append
      rw [reached] at asked
      exact ⟨_, ⟨before, first, since ++ [r], by simp, restarted, rfl,
        undisturbed_concat kept asked⟩, assembly.trans shown⟩

/-- The assembly shows what a fetch reads at every address, and nothing where it faults. The
listing of a session shows the words of the memory right after the last load or reset, and the
marked line shows the word of the next active cycle unless its bytes were written since. -/
theorem lists_what_is_fetched :
    (∀ m : Machine, ∃ assembly,
      Assembly.ofImage (m.memory.cells.toList.map fun b => (b.toNat : Int)) = .ok assembly ∧
      assembly.texts.size = memorySize ∧
      ∀ pc : UInt16, pc.toNat < memorySize →
        let fetched := ({ m with pc := pc } : Machine).fetch
        assembly.texts[pc.toNat]? =
          some (if pc = 0xFFF then none else some (textOfInt fetched.value.opcode.toNat)) ∧
        (Faults fetched ↔ assembly.texts[pc.toNat]? = some none)) ∧
    ∀ config opened, create config = .ok opened → ∀ earlier : List Request,
      let s := opened.after earlier
      let pc : Int := s.machine.pc.toNat
      s.isLoaded = true → ∃ began, opened.LastStart earlier began ∧
        let text (a : Int) := textOfInt (began.machine.memory.word 0 a.toNat).toNat
        (∀ window : Int,
          (∃ addresses : List Int, addresses.Pairwise (· < ·) ∧
            (∀ a, a ∈ addresses ↔ 0 ≤ a ∧ a ≤ 0xFFE ∧ a % 2 = pc % 2 ∧
              pc - window / 2 ≤ a ∧ a < pc + window / 2) ∧
            s.listing window = addresses.map fun a => Listing.line pc a (text a)) ∧
          (s.listing window).filter Listing.Marked =
            if 2 ≤ window ∧ pc ≤ 0xFFE then [Listing.line pc pc (text pc)] else []) ∧
        ((∀ a, a = s.machine.pc.toNat ∨ a = s.machine.pc.toNat + 1 →
            s.machine.memory.read 0 a = began.machine.memory.read 0 a) →
          ∀ actions, (∀ a ∈ actions, a.isRestart = false) → s.machine.Dormant actions →
            let next := s.machine.actAll actions
            next.isActive = true → text pc = textOfInt next.cycle.value.opcode.toNat) := by
  refine ⟨?_, ?_⟩
  · intro m
    exact ⟨.ofMemory m.memory, Assembly.ofImage_cells m.memory, Assembly.size_ofMemory m.memory,
      fun pc inside => Assembly.texts_fetch m inside⟩
  · intro config opened created earlier s pc loaded
    have coherent : s.Coherent := (coherent_create created).after earlier
    obtain ⟨began, last, shown⟩ := (settled_create created).exists_lastStart (idle_create created)
      earlier loaded
    refine ⟨began, last, ?_⟩
    intro text
    refine ⟨?_, ?_⟩
    · intro window
      obtain ⟨addresses, sorted, mem, lines⟩ :=
        Listing.lines_ofMemory began.machine.memory pc window
      have listed : s.listing window = addresses.map fun a => Listing.line pc a (text a) := by
        rw [listing, shown]
        exact lines
      refine ⟨⟨addresses, sorted, mem, listed⟩, ?_⟩
      have current : pc ∈ addresses ↔ 2 ≤ window ∧ pc ≤ 0xFFE := by
        rw [mem]
        omega
      rw [listed, Listing.filter_marked sorted]
      simp only [current]
    · intro unwritten actions kept dormant next active
      have fetched := (dormant.fetches kept coherent.machine.status_named).2 active
      rw [fetched, wordOn, Memory.word, unwritten _ (.inl rfl), unwritten _ (.inr rfl)]
      rfl

/-- A program that has set a register is about to jump back to its start. -/
theorem lists_what_is_fetched_before_jump :
    let s := standard.after [.load [0x6A, 0x05, 0x12, 0x00], .runCycle]
    (create .standard = .ok standard ∧ s.isLoaded = true ∧ s.machine.Dormant [.keyDown 3]) ∧
      (s.listing 4).filter Listing.Marked = ["->  0x202: JUMP 0x200"] ∧
      textOfInt (s.machine.actAll [.keyDown 3]).cycle.value.opcode.toNat = "JUMP 0x200" := by
  intro s
  have loaded : s.isLoaded = true := by decide +kernel
  have dormant : s.machine.Dormant [.keyDown 3] := by
    intro earlier cut
    have last := cut.eq_of_length_le (by simp)
    cases earlier <;> simp at last
  obtain ⟨began, last, shown, current⟩ :=
    lists_what_is_fetched.2 .standard standard create_standard _ loaded
  have origin : began = standard.after [.load [0x6A, 0x05, 0x12, 0x00]] := by
    obtain ⟨before, r, since, cut, restarted, rfl, _⟩ := last
    cases before with
    | nil =>
      cases cut
      rfl
    | cons first rest =>
      cases rest with
      | nil =>
        cases cut
        cases restarted
      | cons second rest =>
        have lengths := congrArg List.length cut
        simp at lengths
  subst origin
  have facts : (standard.after [.load [0x6A, 0x05, 0x12, 0x00], .runCycle]).machine.pc.toNat =
        0x202 ∧
      s.machine.memory.read 0 0x202 = 0x12 ∧ s.machine.memory.read 0 0x203 = 0x00 ∧
      (standard.after [.load [0x6A, 0x05, 0x12, 0x00]]).machine.memory.read 0 0x202 = 0x12 ∧
      (standard.after [.load [0x6A, 0x05, 0x12, 0x00]]).machine.memory.read 0 0x203 = 0x00 ∧
      (s.machine.actAll [.keyDown 3]).isActive = true := by decide +kernel
  obtain ⟨pc, high, low, high', low', active⟩ := facts
  have marked := (shown 4).2
  simp only [pc, Int.toNat_natCast, Memory.word, high', low'] at marked current
  have unwritten : ∀ a, a = 0x202 ∨ a = 0x202 + 1 → s.machine.memory.read 0 a =
      (standard.after [.load [0x6A, 0x05, 0x12, 0x00]]).machine.memory.read 0 a := by
    rintro a (rfl | rfl)
    · rw [high, high']
    · rw [low, low']
  have fetched := current unwritten [.keyDown 3] (by decide) dormant active
  exact ⟨⟨create_standard, loaded, dormant⟩, marked.trans (by decide +kernel),
    fetched.symm.trans (by decide +kernel)⟩

end Session

end Chip8
