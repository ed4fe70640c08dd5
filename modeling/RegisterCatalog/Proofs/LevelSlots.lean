import RegisterCatalog.Proofs.OffsideRule
import RegisterCatalog.Proofs.SiblingOrder
import RegisterCatalog.Proofs.SingleSpaces
import RegisterCatalog.Proofs.Spacing

/-! A reader with a stack of widths and one slot for each level, which holds the place of the last entry there. Each of the
two is changed on its own, and either may seem to lack what a line needs from it: a level, a parent, an entry at a place.
Together they never do. They hold what the open entries tell, so this reader gives every answer that the other one gives,
and whatever it refuses is located on a line of the text. -/

namespace RegisterCatalog.Catalog
open Outcome

/-- Why a reader with slots stops: at a fault of the text, or because it lacks what a line needs. -/
inductive Halt
  | fault (fault : Fault)
  | noLevel
  | noName
  | noParent
  | noEntry

/-- What has been read so far, with the widths of the lines that are still open, innermost first, and the place of the last
entry on each level. -/
structure SlotReader where
  catalog : Catalog := {}
  widths : List Nat := []
  slot : Level → Option Nat := fun _ => none

namespace SlotReader

def deepen (widths : List Nat) (width : Nat) : Except Halt (List Nat) :=
  if widths.length = Level.all.length then .error (.fault .tooDeep) else .ok (width :: widths)

/-- The widths that are open from a line of the given width on. -/
def track (widths : List Nat) (width : Nat) : Except Halt (List Nat) :=
  match widths with
  | [] => deepen widths width
  | top :: _ =>
    if width = top then .ok widths
    else if width < top then
      let kept := widths.dropWhile fun other => width < other
      if kept.head? = some width then .ok kept else .error (.fault .badIndent)
    else deepen widths width

def entryAt (reader : SlotReader) (place : Nat) : Except Halt Entry :=
  match reader.catalog.entries[place]? with
  | none => .error .noEntry
  | some entry => .ok entry

def parent (reader : SlotReader) (level : Level) : Except Halt Entry.Above :=
  match reader.slot level with
  | none => .error .noParent
  | some place => return ⟨place, ← reader.entryAt place⟩

def above? (reader : SlotReader) : Level → Except Halt (Option Entry.Above)
  | .address => .ok none
  | .field => some <$> reader.parent .address
  | .value => some <$> reader.parent .field

def previous? (reader : SlotReader) (level : Level) : Except Halt (Option Entry) :=
  match reader.slot level with
  | none => .ok none
  | some place => some <$> reader.entryAt place

/-- The slots after an entry has come to a place. There is nothing on the levels below it yet. -/
def fill (slot : Level → Option Nat) (level : Level) (place : Nat) : Level → Option Nat := fun other =>
  if other = level then some place else if level.depth < other.depth then none else slot other

def add (settings : Settings) (layout : Layout) (reader : SlotReader) (line : Nat) (code : String) :
    Except Halt SlotReader := do
  let widths ← track reader.widths (indentation code)
  match Level.ofDepth? (widths.length - 1) with
  | none => .error .noLevel
  | some level =>
    match Text.words code with
    | [] => .error .noName
    | word :: rest =>
      let above? ← reader.above? level
      let previous? ← reader.previous? level
      let entry ← (Entry.ofWords settings layout line level above? previous? word rest).mapError .fault
      return { catalog := reader.catalog.push entry, widths, slot := fill reader.slot level reader.catalog.size }

/-- Reads one line. A line with nothing but a comment and blanks changes nothing. -/
def readLine (settings : Settings) (layout : Layout) (reader : SlotReader) (line : SourceLine) :
    Except (SourceLine × Halt) SlotReader :=
  let code := Text.stripComment line.text
  if (Chars.trim code.toList).isEmpty then .ok reader
  else (reader.add settings layout line.number code).mapError (line, ·)

end SlotReader

def halted (located : LineFault) : SourceLine × Halt := (located.line, .fault located.fault)

def readBySlots (settings : Settings) (layout : Layout) (text : String) : Except (SourceLine × Halt) Catalog := do
  let lines := sourceLines text
  match lines.find? fun line => Text.contains "\t" line.text with
  | some line => .error (line, .fault .tabCharacter)
  | none =>
    let reader ← lines.foldlM (SlotReader.readLine settings layout) {}
    (Reading.finish lines { catalog := reader.catalog }).mapError halted

end RegisterCatalog.Catalog

namespace RegisterCatalog.Chars

theorem isEmpty_trim_iff (text : List Char) : (trim text).isEmpty ↔ words text = [] := by
  rw [List.isEmpty_iff, ← words_trim]
  constructor
  · intro empty
    rw [empty]
    rfl
  · intro none
    cases kept : trim text with
    | nil => rfl
    | cons c rest =>
      have letter : isBlank c = false := head?_trim text c (by rw [kept]; rfl)
      rw [kept, words, List.filter_eq_nil_iff] at none
      unfold pieces at none
      rw [letter] at none
      cases cut : pieces isBlank rest <;> simp [cut] at none

end RegisterCatalog.Chars

namespace RegisterCatalog.Catalog
open Outcome

variable {settings : Settings} {layout : Layout} {reading : Reading}

namespace Reading

theorem Reached.decreasing (reached : Reached settings layout reading) :
    reading.opened.Pairwise fun inner outer => outer.width < inner.width := by
  induction reached with
  | start => exact .nil
  | add _ done ih =>
    obtain ⟨found, _, _, placed, _, _, rfl⟩ := add_eq_ok done
    refine .cons ?_ (ih.sublist (Outline.above_suffix placed).sublist)
    rcases Outline.place_eq_ok placed with ⟨_, all, narrow⟩ | ⟨previous, _, within, same⟩
    · rw [all]
      intro outer member
      obtain ⟨innermost, rest, opened⟩ := List.exists_cons_of_ne_nil (List.ne_nil_of_mem member)
      rw [opened] at ih narrow member
      have first := narrow innermost rfl
      rcases List.mem_cons.mp member with rfl | member
      · exact first
      · exact Nat.lt_trans (List.rel_of_pairwise_cons ih member) first
    · intro outer member
      rw [← same]
      exact List.rel_of_pairwise_cons (ih.sublist within.sublist) member

theorem Linked.shallow (linked : reading.Linked) : reading.opened.length ≤ Level.all.length := by
  cases opened : reading.opened with
  | nil => exact Nat.zero_le _
  | cons innermost above =>
    have depth := linked.depth innermost above (opened ▸ List.suffix_rfl)
    have few := innermost.entry.level.depth_le
    simp only [List.length_cons, Level.all, List.length_nil]
    omega

theorem Reached.latest (reached : Reached settings layout reading) :
    ∀ opened ∈ reading.opened, ∀ (place : Nat) (entry : Entry), reading.catalog.entries[place]? = some entry →
      entry.level = opened.entry.level → place ≤ opened.place := by
  induction reached with
  | start => simp
  | @add before _ _ _ _ _ earlier done ih =>
    obtain ⟨found, level, entry, placed, deep, declared, rfl⟩ := add_eq_ok done
    have inside := Outline.above_suffix placed
    intro opened member place other stored same
    rw [getElem?_push] at stored
    rcases List.mem_cons.mp member with rfl | member
    · split at stored
      next new => exact Nat.le_of_eq new
      next => exact Nat.le_of_lt (lt_size stored)
    · split at stored
      next =>
        cases stored
        obtain ⟨inner, outer, split⟩ := List.append_of_mem member
        have depth := earlier.linked.depth opened outer (.trans ⟨inner, split.symm⟩ inside)
        rw [← same, (Entry.ofWords_stands declared).level, deep, split] at depth
        simp at depth
        omega
      next => exact ih opened (inside.subset member) place other stored same

end Reading

namespace SlotReader

/-- The slots and widths that belong to the open entries. -/
def ofReading (reading : Reading) : SlotReader :=
  { catalog := reading.catalog
    widths := reading.opened.map Opened.width
    slot := fun level => reading.opened.reverse[level.depth]?.map fun opened => opened.place }

theorem deepen_of_lt {widths : List Nat} (room : widths.length < Level.all.length) (width : Nat) :
    deepen widths width = .ok (width :: widths) := by
  rw [deepen, if_neg (Nat.ne_of_lt room)]

/-- The stack of widths leads to the same entries as the search among the open ones. -/
theorem track_eq_place {widths : List Nat} (few : widths.length ≤ Level.all.length) (width : Nat) :
    track widths width =
      (Outline.place id widths width).mapError .fault >>= fun found => deepen found.above width := by
  cases widths with
  | nil => rfl
  | cons top rest =>
    unfold track Outline.place
    simp only [id_eq]
    rcases Nat.lt_trichotomy width top with less | rfl | more
    · rw [if_neg (Nat.ne_of_lt less), if_pos less, if_neg (Nat.lt_asymm less),
        List.dropWhile_cons_of_pos (by simpa using less)]
      cases kept : rest.dropWhile fun other => width < other with
      | nil => rfl
      | cons previous above =>
        have shorter := (List.dropWhile_suffix (l := rest) fun other => width < other).length_le
        simp only [kept, List.length_cons] at shorter few
        by_cases same : previous = width
        · simp only [List.head?_cons, same, if_true]
          exact (deepen_of_lt (by omega) width).symm
        · simp only [List.head?_cons, Option.some.injEq, same, if_false]
          rfl
    · rw [if_pos rfl, if_neg (Nat.lt_irrefl width), List.dropWhile_cons_of_neg (by simp)]
      simp only [if_true]
      exact (deepen_of_lt few width).symm
    · rw [if_neg (Nat.ne_of_gt more), if_neg (Nat.lt_asymm more), if_pos more]
      rfl

theorem getElem?_reverse_eq_some {items : List α} {index : Nat} {item : α} :
    items.reverse[index]? = some item ↔ ∃ rest, item :: rest <:+ items ∧ rest.length = index := by
  constructor
  · intro found
    obtain ⟨inside, same⟩ := List.getElem?_eq_some_iff.mp found
    rw [List.length_reverse] at inside
    have later := List.drop_suffix (items.length - 1 - index) items
    rw [List.drop_eq_getElem_cons (by omega), ← List.getElem_reverse (by simpa using inside), same] at later
    exact ⟨_, later, by rw [List.length_drop]; omega⟩
  · rintro ⟨rest, ⟨before, rfl⟩, rfl⟩
    rw [List.reverse_append, List.reverse_cons, List.getElem?_append_left (by simp)]
    simp

theorem slot_eq_some {level : Level} {place : Nat} :
    (ofReading reading).slot level = some place ↔
      ∃ opened above, opened :: above <:+ reading.opened ∧ above.length = level.depth ∧ opened.place = place := by
  simp only [ofReading, Option.map_eq_some_iff, getElem?_reverse_eq_some]
  grind

theorem slot_eq_none {level : Level} :
    (ofReading reading).slot level = none ↔ reading.opened.length ≤ level.depth := by
  simp [ofReading]

theorem entryAt_ofReading (linked : reading.Linked) {opened : Opened} (member : opened ∈ reading.opened) :
    (ofReading reading).entryAt opened.place = .ok opened.entry := by
  simp only [entryAt, ofReading, linked.stored opened member]

section Places

variable {found : Outline.Place Opened} {level : Level} {width : Nat}

theorem above?_ofReading (linked : reading.Linked)
    (placed : Outline.place Opened.width reading.opened width = .ok found) (deep : level.depth = found.above.length) :
    (ofReading reading).above? level = .ok (found.above.head?.map Opened.toAbove) := by
  have inside := Outline.above_suffix placed
  cases outer : found.above with
  | nil =>
    rw [outer] at deep
    cases level <;> cases deep
    rfl
  | cons direct others =>
    rw [outer] at deep inside
    have parent : ∀ upper : Level, upper.depth = others.length →
        (ofReading reading).parent upper = .ok direct.toAbove := by
      intro upper height
      have filled : (ofReading reading).slot upper = some direct.place :=
        slot_eq_some.mpr ⟨direct, others, inside, height.symm, rfl⟩
      rw [parent, filled]
      simp only [entryAt_ofReading linked (inside.subset List.mem_cons_self)]
      rfl
    rw [List.length_cons] at deep
    cases level with
    | address => cases deep
    | field =>
      rw [above?, parent .address (Nat.succ.inj deep)]
      rfl
    | value =>
      rw [above?, parent .field (Nat.succ.inj deep)]
      rfl

theorem previous?_ofReading (linked : reading.Linked)
    (placed : Outline.place Opened.width reading.opened width = .ok found) (deep : level.depth = found.above.length) :
    (ofReading reading).previous? level = .ok (found.previous?.map fun previous => previous.entry) := by
  rcases Outline.place_eq_ok placed with ⟨none, all, _⟩ | ⟨previous, some, within, _⟩
  · have empty : (ofReading reading).slot level = Option.none := slot_eq_none.mpr (by rw [deep, all])
    rw [previous?, empty, none]
    rfl
  · have filled : (ofReading reading).slot level = Option.some previous.place :=
      slot_eq_some.mpr ⟨previous, found.above, within, deep.symm, rfl⟩
    rw [previous?, filled, some]
    simp only [entryAt_ofReading linked (within.subset List.mem_cons_self)]
    rfl

theorem fill_ofReading (placed : Outline.place Opened.width reading.opened width = .ok found)
    (deep : level.depth = found.above.length) (catalog : Catalog) (entry : Entry) (place : Nat) :
    fill (ofReading reading).slot level place =
      (ofReading ⟨catalog, ⟨⟨place, entry⟩, width⟩ :: found.above⟩).slot := by
  have inside := Outline.above_suffix placed
  funext other
  unfold fill
  split
  next same =>
    symm
    rw [slot_eq_some]
    exact ⟨_, found.above, List.suffix_rfl, by rw [same, deep], rfl⟩
  next different =>
    split
    next below =>
      symm
      rw [slot_eq_none, List.length_cons]
      omega
    next notBelow =>
      have apart : other.depth ≠ level.depth := fun same => different (Level.tag_inj (congrArg (· + 1) same))
      have upper : other.depth < found.above.length := by omega
      obtain ⟨opened, kept⟩ : ∃ opened, found.above.reverse[other.depth]? = some opened := by
        simp [upper]
      obtain ⟨outer, within, height⟩ := getElem?_reverse_eq_some.mp kept
      rw [slot_eq_some.mpr ⟨opened, outer, within.trans inside, height, rfl⟩]
      symm
      exact slot_eq_some.mpr ⟨opened, outer, within.trans (List.suffix_cons _ _), height, rfl⟩

end Places

theorem track_ofReading (linked : reading.Linked) (width : Nat) :
    track (ofReading reading).widths width = (Outline.place Opened.width reading.opened width).mapError .fault >>=
      fun found => deepen (found.above.map Opened.width) width := by
  have few : (ofReading reading).widths.length ≤ Level.all.length := by
    simpa [ofReading] using linked.shallow
  have placed : Outline.place id (ofReading reading).widths width =
      (Outline.place Opened.width reading.opened width).map (Outline.Place.map Opened.width) :=
    Outline.place_map Opened.width id reading.opened width
  rw [track_eq_place few, placed]
  cases Outline.place Opened.width reading.opened width <;> rfl

/-- A line is added with slots as it is added to the open entries. -/
theorem add_ofReading (linked : reading.Linked) (line : Nat) {code word : String} {rest : List String}
    (words : Text.words code = word :: rest) :
    (ofReading reading).add settings layout line code =
      ((reading.add settings layout line (indentation code) word rest).map ofReading).mapError .fault := by
  unfold add Reading.add
  rw [track_ofReading linked]
  cases placed : Outline.place Opened.width reading.opened (indentation code) with
  | error fault => rfl
  | ok found =>
    have few : found.above.length ≤ Level.all.length :=
      Nat.le_trans (Outline.above_suffix placed).length_le linked.shallow
    by_cases full : found.above.length = Level.all.length
    · have deepest : deepen (found.above.map Opened.width) (indentation code) = .error (.fault .tooDeep) := by
        rw [deepen, if_pos (by simpa using full)]
      simp only [Except.mapError, bind, Except.bind, deepest, full]
      rfl
    · obtain ⟨level, deep⟩ : ∃ level : Level, level.depth = found.above.length := by
        apply Level.exists_depth
        simp only [Level.all, List.length_cons, List.length_nil] at few full
        omega
      have deeper : deepen (found.above.map Opened.width) (indentation code) =
          .ok (indentation code :: found.above.map Opened.width) := by
        apply deepen_of_lt
        rw [List.length_map]
        omega
      simp only [Except.mapError, bind, Except.bind, deeper, List.length_cons, List.length_map, Nat.add_sub_cancel,
        Level.ofDepth?_eq_some.mpr deep, words, above?_ofReading linked placed deep,
        previous?_ofReading linked placed deep]
      cases Entry.ofWords settings layout line level (found.above.head?.map Opened.toAbove)
          (found.previous?.map fun previous => previous.entry) word rest with
      | error fault => rfl
      | ok entry =>
        simp only [fill_ofReading placed deep (reading.catalog.push entry) entry]
        rfl

theorem readLine_ofReading (linked : reading.Linked) (line : SourceLine) :
    (ofReading reading).readLine settings layout line =
      ((reading.readLine settings layout line).map ofReading).mapError halted := by
  have blank : (Chars.trim (Text.stripComment line.text).toList).isEmpty ↔
      Text.words (Text.stripComment line.text) = [] := by
    rw [Chars.isEmpty_trim_iff, Text.words, List.map_eq_nil_iff]
  unfold readLine Reading.readLine
  cases words : Text.words (Text.stripComment line.text) with
  | nil =>
    simp only [words, blank.mpr words, if_true]
    rfl
  | cons word rest =>
    have letters : ¬ (Chars.trim (Text.stripComment line.text).toList).isEmpty := by
      rw [blank, words]
      simp
    simp only [words, letters, if_false, Bool.false_eq_true, add_ofReading linked line.number words]
    cases reading.add settings layout line.number (indentation (Text.stripComment line.text)) word rest <;> rfl

/-- Lines are read with slots as they are read with open entries. -/
theorem readLines_ofReading (reached : Reading.Reached settings layout reading) (lines : List SourceLine) :
    lines.foldlM (readLine settings layout) (ofReading reading) =
      ((lines.foldlM (Reading.readLine settings layout) reading).map ofReading).mapError halted := by
  induction lines generalizing reading with
  | nil => rfl
  | cons line rest ih =>
    rw [List.foldlM_cons, List.foldlM_cons, readLine_ofReading reached.linked]
    cases moved : reading.readLine settings layout line with
    | error fault => rfl
    | ok next => exact ih (reached.readLine moved)

/-- How the widths, the slots and the catalog fit together. -/
structure Consistent (reader : SlotReader) : Prop where
  increasing : reader.widths.reverse.Pairwise (· < ·)
  shallow : reader.widths.length ≤ Level.all.length
  filled : ∀ level, (reader.slot level).isSome ↔ level.depth < reader.widths.length
  /-- A slot holds the last entry of its level. -/
  latest : ∀ level place, reader.slot level = some place → ∃ entry, reader.catalog.entries[place]? = some entry ∧
    entry.level = level ∧ ∀ (other : Nat) (beside : Entry), reader.catalog.entries[other]? = some beside →
      beside.level = level → other ≤ place
  /-- The next slot holds the last child, if there is one. -/
  chained : ∀ upper lower place, lower.depth = upper.depth + 1 → reader.slot upper = some place →
    (reader.catalog.children place).getLast? = reader.slot lower
  newest : ∀ last, reader.catalog.size = last + 1 → ∃ level, level.depth + 1 = reader.widths.length ∧
    reader.slot level = some last
  /-- Parents are stored, and before their children. -/
  parents : ∀ place above, reader.catalog.parent? place = some above → above < place ∧ place < reader.catalog.size

theorem ofReading_latest (reached : Reading.Reached settings layout reading) {level : Level} {place : Nat}
    (filled : (ofReading reading).slot level = some place) :
    ∃ entry, reading.catalog.entries[place]? = some entry ∧ entry.level = level ∧
      ∀ (other : Nat) (beside : Entry), reading.catalog.entries[other]? = some beside →
        beside.level = level → other ≤ place := by
  obtain ⟨opened, above, within, height, rfl⟩ := slot_eq_some.mp filled
  have member : opened ∈ reading.opened := within.subset List.mem_cons_self
  have same : opened.entry.level = level :=
    Level.tag_inj (congrArg (· + 1) ((reached.linked.depth opened above within).trans height))
  refine ⟨opened.entry, reached.linked.stored opened member, same, ?_⟩
  rw [← same]
  exact reached.latest opened member

theorem ofReading_chained (reached : Reading.Reached settings layout reading) {upper lower : Level} {place : Nat}
    (next : lower.depth = upper.depth + 1) (filled : (ofReading reading).slot upper = some place) :
    (reading.catalog.children place).getLast? = (ofReading reading).slot lower := by
  have linked := reached.linked
  obtain ⟨opened, above, within, height, rfl⟩ := slot_eq_some.mp filled
  obtain ⟨before, split⟩ := within
  rcases List.eq_nil_or_concat before with rfl | ⟨inner, last, rfl⟩
  · have innermost : reading.opened = opened :: above := split.symm
    have childless := linked.childless
    rw [innermost] at childless
    have empty : (ofReading reading).slot lower = none :=
      slot_eq_none.mpr (by rw [innermost, List.length_cons]; omega)
    rw [empty, children, show reading.catalog.placesBelow (some opened.place) = [] from childless, List.getLast?_nil]
  · have within : last :: opened :: above <:+ reading.opened :=
      ⟨inner, by rw [← split, List.concat_eq_append, List.append_assoc, List.singleton_append]⟩
    have below := reached.last_sibling last (within.subset List.mem_cons_self)
    rw [linked.parent last (opened :: above) within] at below
    have filled : (ofReading reading).slot lower = some last.place :=
      slot_eq_some.mpr ⟨last, opened :: above, within, by rw [List.length_cons]; omega, rfl⟩
    exact filled ▸ below

theorem ofReading_newest (reached : Reading.Reached settings layout reading) {last : Nat}
    (size : reading.catalog.size = last + 1) :
    ∃ level, level.depth + 1 = (ofReading reading).widths.length ∧ (ofReading reading).slot level = some last := by
  cases reached with
  | start => cases size
  | @add before _ line width word rest earlier done =>
    obtain ⟨found, level, entry, _, deep, _, rfl⟩ := Reading.add_eq_ok done
    rw [size_push] at size
    cases Nat.succ.inj size
    exact ⟨level, by simp [ofReading, deep], slot_eq_some.mpr ⟨_, found.above, List.suffix_rfl, deep.symm, rfl⟩⟩

theorem ofReading_consistent (reached : Reading.Reached settings layout reading) : (ofReading reading).Consistent := by
  have linked := reached.linked
  constructor
  · rw [List.pairwise_reverse, ofReading, List.pairwise_map]
    exact reached.decreasing
  · simpa [ofReading] using linked.shallow
  · intro level
    rw [Option.isSome_iff_ne_none, Ne, slot_eq_none]
    simp [ofReading]
  · exact fun _ _ => ofReading_latest reached
  · exact fun _ _ _ => ofReading_chained reached
  · exact fun _ => ofReading_newest reached
  · intro place above below
    obtain ⟨entry, stored, parent⟩ := parent?_eq_some.mp below
    exact ⟨linked.earlier place entry above stored parent, lt_size stored⟩

end SlotReader

theorem readBySlots_eq (settings : Settings) (layout : Layout) (text : String) :
    readBySlots settings layout text = (read settings layout text).mapError halted := by
  rw [read_eq]
  unfold readBySlots
  dsimp only
  cases (sourceLines text).find? fun line => Text.contains "\t" line.text with
  | some line => rfl
  | none =>
    simp only
    rw [show ({} : SlotReader) = SlotReader.ofReading {} from rfl, SlotReader.readLines_ofReading .start]
    cases (sourceLines text).foldlM (Reading.readLine settings layout) {} <;> rfl

section Located

variable {text : String} {line : SourceLine} {located : LineFault}

/-- The line is one of the text, as it is written there. -/
def InText (text : String) (line : SourceLine) : Prop :=
  ∃ index, line.number = index + 1 ∧ (Text.lines text)[index]? = some line.text

theorem inText_of_source (member : line ∈ sourceLines text) : InText text line := by
  obtain ⟨⟨written, number⟩, inside, rfl⟩ := List.mem_map.mp member
  obtain ⟨positive, found⟩ := List.mk_mem_zipIdx_iff_le_and_getElem?_sub.mp inside
  exact ⟨number - 1, (Nat.sub_add_cancel positive).symm, found⟩

/-- At the end a fault is located on the line that declares the entry. -/
theorem Reading.Run.inText_of_finish {reading : Reading} (run : Run settings layout (codeLines text) reading)
    (failed : reading.finish (sourceLines text) = .error located) : InText text located.line := by
  unfold finish at failed
  split at failed
  · cases failed
  next found =>
    cases failed
    obtain ⟨place, stored⟩ := List.getElem?_of_mem (faultAmong?_eq_some found).1
    exact inText_of_source (List.mem_of_mem_filter (List.mem_of_getElem? (run.line_of_entry stored)))

theorem inText_of_read (failed : read settings layout text = .error located) : InText text located.line := by
  rw [read_eq] at failed
  split at failed
  next line tab =>
    cases failed
    exact inText_of_source (List.mem_of_find?_eq_some tab)
  · rcases bind_eq_error.mp failed with stopped | ⟨reading, collected, unsound⟩
    · obtain ⟨before, source, after, _, split, _, refused⟩ := foldlM_eq_error stopped
      obtain ⟨_, _, same, _⟩ := Reading.readLine_eq_error refused
      rw [same]
      exact inText_of_source (by simp [split])
    · exact (Reading.Run.start.readLines collected).inText_of_finish unsound

end Located

/-- Whatever lines have been read, widths and slots fit together, and the reader is where one with open entries would be. So
for every text it finds all that a line needs: it stops only at a fault that the text is refused for, and this is located
on a line of the text. -/
theorem slots_never_lack (settings : Settings) (layout : Layout) :
    (∀ lines : List SourceLine,
      lines.foldlM (SlotReader.readLine settings layout) {} =
        ((lines.foldlM (Reading.readLine settings layout) {}).map SlotReader.ofReading).mapError halted ∧
      ∀ reader, lines.foldlM (SlotReader.readLine settings layout) {} = .ok reader → reader.Consistent) ∧
    ∀ text, readBySlots settings layout text = (read settings layout text).mapError halted ∧
      ∀ line halt, readBySlots settings layout text = .error (line, halt) →
        (∃ fault, halt = .fault fault ∧ read settings layout text = .error ⟨line, fault⟩) ∧ InText text line := by
  constructor
  · intro lines
    have alike := @SlotReader.readLines_ofReading settings layout {} .start lines
    refine ⟨alike, ?_⟩
    intro reader collected
    have collected := alike.symm.trans collected
    cases read : lines.foldlM (Reading.readLine settings layout) {} with
    | error located =>
      rw [read] at collected
      cases collected
    | ok reading =>
      rw [read] at collected
      cases collected
      have reached : Reading.Reached settings layout reading :=
        foldlM_invariant _ (fun _ _ _ earlier done => earlier.readLine done) .start read
      exact SlotReader.ofReading_consistent reached
  · intro text
    have same := readBySlots_eq settings layout text
    refine ⟨same, ?_⟩
    intro line halt stopped
    rw [same] at stopped
    cases answer : read settings layout text with
    | ok catalog =>
      rw [answer] at stopped
      cases stopped
    | error located =>
      rw [answer] at stopped
      cases stopped
      exact ⟨⟨located.fault, rfl, rfl⟩, inText_of_read answer⟩

/-- On the fourth line of the first text the third level is given up, and the last line of the second stands nowhere. -/
theorem slots_never_lack_dedent :
    (∃ reader,
      (sourceLines "LW_A\n  _F\n    _V\n  _G\n").foldlM (SlotReader.readLine {} ⟨8, 8, 14, by decide⟩) {} =
        .ok reader ∧
      reader.widths = [2, 0] ∧ Level.all.map reader.slot = [some 0, some 3, none] ∧
      (reader.catalog.children 0).getLast? = some 3 ∧ reader.catalog.children 3 = []) ∧
    readBySlots {} ⟨8, 8, 14, by decide⟩ "LW_A # first\n\n    _F\n  _G\n" =
      .error (⟨4, "  _G"⟩, .fault .badIndent) ∧
    read {} ⟨8, 8, 14, by decide⟩ "LW_A # first\n\n    _F\n  _G\n" = .error ⟨⟨4, "  _G"⟩, .badIndent⟩ ∧
    InText "LW_A # first\n\n    _F\n  _G\n" ⟨4, "  _G"⟩ := by
  have seen : (((sourceLines "LW_A\n  _F\n    _V\n  _G\n").foldlM (SlotReader.readLine {} ⟨8, 8, 14, by decide⟩)
      {}).toOption.map fun reader => (reader.widths, Level.all.map reader.slot)) =
      some ([2, 0], [some 0, some 3, none]) := by
    rfl
  obtain ⟨reader, collected, seen⟩ := Option.map_eq_some_iff.mp seen
  rw [toOption_eq_some] at collected
  obtain ⟨widths, slots⟩ := Prod.mk.inj seen
  have consistent := ((slots_never_lack _ _).1 _).2 reader collected
  obtain ⟨address, field, value⟩ :
      reader.slot .address = some 0 ∧ reader.slot .field = some 3 ∧ reader.slot .value = none := by
    simpa [Level.all] using slots
  have stopped : readBySlots {} ⟨8, 8, 14, by decide⟩ "LW_A # first\n\n    _F\n  _G\n" =
      .error (⟨4, "  _G"⟩, .fault .badIndent) := rfl
  obtain ⟨⟨_, same, refused⟩, inside⟩ := ((slots_never_lack _ _).2 _).2 _ _ stopped
  cases same
  refine ⟨⟨reader, collected, widths, slots, ?_, ?_⟩, stopped, refused, inside⟩
  · rw [consistent.chained .address .field 0 rfl address, field]
  · rw [← List.getLast?_eq_none_iff, consistent.chained .field .value 3 rfl field, value]

end RegisterCatalog.Catalog
