import RegisterCatalog.Proofs.CodeLines
import RegisterCatalog.Proofs.OffsideRule

/-! Entries stand where their lines do. A reader finds the entry above a line among the entries it keeps
open, and that is the entry of the line that the offside rule asks for. -/

namespace RegisterCatalog.Outline

def widthAt (widths : List Nat) (line : Nat) : Nat := widths.getD line 0

theorem map_widthAt_range (widths : List Nat) : (List.range widths.length).map (widthAt widths) = widths := by
  apply List.ext_getElem (by simp)
  intro line inside bound
  simp [widthAt, List.getElem?_eq_getElem bound]

theorem exists_trailOf_iff (widths : List Nat) :
    (∃ trail, trailOf widths = .ok trail) ↔ Regular (widthAt widths) widths.length := by
  constructor
  · intro gone
    obtain ⟨trail, done⟩ := gone
    rw [← map_widthAt_range widths] at done
    exact (trailOf_range_eq_ok done).1
  · intro regular
    have gone := exists_trailOf_range regular
    rwa [map_widthAt_range] at gone

theorem levels_of_trailOf {widths : List Nat} {trail : Trail} (done : trailOf widths = .ok trail) :
    trail.levels.map Level.depth =
      (List.range widths.length).map fun line => (ancestors (widthAt widths) line).length := by
  rw [← map_widthAt_range widths] at done
  exact (trailOf_range_eq_ok done).2.2

end RegisterCatalog.Outline

namespace RegisterCatalog.Catalog
open Outcome Outline

variable {settings : Settings} {layout : Layout}

namespace Reading

/-- The open entries are those of the open lines, and every entry is below that of its outer line. -/
structure Outlined (widthOf : Nat → Nat) (reading : Reading) : Prop where
  opened : (reading.opened.map fun opened => (opened.place, opened.width)) =
    (openAfter widthOf reading.catalog.size).map fun line => (line, widthOf line)
  parents : ∀ (place : Nat) (entry : Entry), reading.catalog.entries[place]? = some entry →
    entry.parent? = outer? widthOf place

theorem outlined_start (widthOf : Nat → Nat) : Outlined widthOf {} := ⟨rfl, by simp⟩

/-- What stands above a new line, seen by its place and width. -/
theorem Outlined.above {widthOf : Nat → Nat} {reading : Reading} {found : Place Opened}
    (outlined : reading.Outlined widthOf)
    (placed : place Opened.width reading.opened (widthOf reading.catalog.size) = .ok found) :
    (found.above.map fun opened => (opened.place, opened.width)) =
      (ancestors widthOf reading.catalog.size).map fun line => (line, widthOf line) := by
  have seen : place Prod.snd (reading.opened.map fun opened => (opened.place, opened.width))
      (widthOf reading.catalog.size) = .ok (found.map fun opened => (opened.place, opened.width)) := by
    rw [place_map]
    change (place Opened.width reading.opened _).map _ = _
    rw [placed]
    rfl
  rw [outlined.opened, place_map] at seen
  change (place widthOf _ _).map _ = _ at seen
  cases done : place widthOf (openAfter widthOf reading.catalog.size) (widthOf reading.catalog.size) with
  | error fault =>
    rw [done] at seen
    cases seen
  | ok line =>
    rw [done] at seen
    have same := congrArg Place.above (Except.ok.inj seen)
    rw [← above_eq_ancestors done]
    exact same.symm

theorem Outlined.add {widthOf : Nat → Nat} {before after : Reading} {line width : Nat} {word : String}
    {rest : List String} (outlined : before.Outlined widthOf) (wide : widthOf before.catalog.size = width)
    (done : before.add settings layout line width word rest = .ok after) : after.Outlined widthOf := by
  subst wide
  obtain ⟨found, level, entry, placed, deep, declared, rfl⟩ := add_eq_ok done
  have above := outlined.above placed
  constructor
  · rw [size_push, openAfter, List.map_cons, List.map_cons, above]
  · intro place stored here
    rw [getElem?_push] at here
    split at here
    next new =>
      cases here
      subst new
      have heads := congrArg (fun pairs => pairs.head?.map Prod.fst) above
      simp only [List.head?_map, Option.map_map, Function.comp_def, head?_ancestors, Option.map_id'] at heads
      rw [(Entry.ofWords_stands declared).parent, Option.map_map]
      exact heads
    next => exact outlined.parents place stored here

theorem Run.outlined {lines : List CodeLine} {reading : Reading} {widthOf : Nat → Nat}
    (run : Run settings layout lines reading)
    (wide : ∀ (place : Nat) (line : CodeLine), lines[place]? = some line → widthOf place = line.width) :
    reading.Outlined widthOf := by
  induction run with
  | start => exact outlined_start widthOf
  | @add lines line before after earlier done ih =>
    have outlined := ih fun place line here =>
      wide place line (by rw [List.getElem?_append_left (List.getElem?_eq_some_iff.mp here).1]; exact here)
    refine outlined.add (wide _ line ?_) done
    rw [earlier.size_eq, List.getElem?_concat_length]

/-- A trail of widths is extended as the reader's list of open entries is. -/
theorem extend_opened (opened : List Opened) (levels : List Level) (width : Nat) :
    Trail.extend ⟨opened.map Opened.width, levels⟩ width = (do
      let found ← place Opened.width opened width
      match Level.ofDepth? found.above.length with
      | none => .error .tooDeep
      | some level => return ⟨width :: found.above.map Opened.width, levels ++ [level]⟩) := by
  simp only [Trail.extend]
  rw [place_map, Function.id_comp]
  cases place Opened.width opened width with
  | error fault => rfl
  | ok found =>
    cases deep : Level.ofDepth? found.above.length <;>
      simp only [Except.map, bind, Except.bind, Place.map, List.length_map, deep]

theorem Run.trail {lines : List CodeLine} {reading : Reading} (run : Run settings layout lines reading) :
    trailOf (lines.map CodeLine.width) =
      .ok ⟨reading.opened.map Opened.width, reading.catalog.toList.map Entry.level⟩ := by
  induction run with
  | start => rfl
  | @add lines line before after earlier done ih =>
    obtain ⟨found, level, entry, placed, deep, declared, rfl⟩ := add_eq_ok done
    rw [List.map_append, List.map_singleton, trailOf_concat, ih]
    change Trail.extend _ _ = _
    rw [extend_opened, placed]
    simp only [bind, Except.bind, Level.ofDepth?_eq_some.mpr deep]
    rw [toList_push, List.map_append, List.map_singleton, (Entry.ofWords_stands declared).level]
    rfl

theorem Run.add_fails {lines : List CodeLine} {reading : Reading} {line : CodeLine} {fault : Fault}
    (run : Run settings layout lines reading) (failed : trailOf ((lines ++ [line]).map CodeLine.width) = .error fault) :
    reading.add settings layout line.number line.width line.word line.rest = .error fault := by
  rw [List.map_append, List.map_singleton, trailOf_concat, run.trail] at failed
  change Trail.extend _ _ = _ at failed
  rw [extend_opened] at failed
  unfold Reading.add
  cases placed : place Opened.width reading.opened line.width with
  | error other =>
    rw [placed] at failed
    cases failed
    rfl
  | ok found =>
    rw [placed] at failed
    cases deep : Level.ofDepth? found.above.length with
    | none =>
      simp only [bind, Except.bind, deep] at failed ⊢
      cases failed
      rfl
    | some level =>
      simp only [bind, Except.bind, deep] at failed
      cases failed

end Reading

variable {text : String} {catalog : Catalog}

theorem outlined_of_read (accepted : read settings layout text = .ok catalog) :
    ∃ opened, Reading.Outlined (widthAt ((codeLines text).map CodeLine.width)) ⟨catalog, opened⟩ := by
  obtain ⟨opened, run⟩ := run_of_read accepted
  refine ⟨opened, run.outlined ?_⟩
  intro place line here
  simp [widthAt, List.getD_eq_getElem?_getD, here]

theorem lines_of_read (accepted : read settings layout text = .ok catalog) :
    catalog.toList.map Entry.line = (codeLines text).map CodeLine.number := by
  obtain ⟨_, run⟩ := run_of_read accepted
  exact run.numbers

/-- Going through lines by their widths succeeds exactly if no line has more than two ancestors and all
lines below one line, or at the top, have one width; the level of a line counts its ancestors. A reader
refuses the line where that fails, with the same fault. The entries of an accepted text are those of its
lines, on these levels, each below the entry of the nearest earlier line that is indented less. -/
theorem parents_follow_indentation :
    (∀ widths : List Nat,
      ((∃ trail, trailOf widths = .ok trail) ↔
        (∀ line < widths.length, (ancestors (widthAt widths) line).length ≤ 2) ∧
        ∀ first < widths.length, ∀ second < widths.length,
          outer? (widthAt widths) first = outer? (widthAt widths) second →
            widthAt widths first = widthAt widths second) ∧
      ∀ trail, trailOf widths = .ok trail →
        trail.levels.map Level.depth =
          (List.range widths.length).map fun line => (ancestors (widthAt widths) line).length) ∧
    (∀ (settings : Settings) (layout : Layout) (lines : List CodeLine) (reading : Reading) (line : CodeLine) (fault : Fault),
      Reading.Run settings layout lines reading → trailOf ((lines ++ [line]).map CodeLine.width) = .error fault →
        reading.add settings layout line.number line.width line.word line.rest = .error fault) ∧
    ∀ (settings : Settings) (layout : Layout) (text : String) (catalog : Catalog),
      read settings layout text = .ok catalog →
        (∃ trail, trailOf ((codeLines text).map CodeLine.width) = .ok trail ∧
          trail.levels = catalog.toList.map Entry.level) ∧
        catalog.toList.map Entry.line = (codeLines text).map CodeLine.number ∧
        ∀ place < (codeLines text).length,
          catalog.parent? place = outer? (widthAt ((codeLines text).map CodeLine.width)) place ∧
          (place ∈ catalog.roots ↔ outer? (widthAt ((codeLines text).map CodeLine.width)) place = none) := by
  refine ⟨?_, fun _ _ _ _ _ _ run failed => run.add_fails failed, ?_⟩
  · intro widths
    refine ⟨?_, fun trail done => levels_of_trailOf done⟩
    rw [exists_trailOf_iff]
    exact ⟨fun regular => ⟨regular.shallow, regular.aligned⟩, fun rule => ⟨rule.1, rule.2⟩⟩
  · intro settings layout text catalog accepted
    obtain ⟨opened, run⟩ := run_of_read accepted
    obtain ⟨_, outlined⟩ := outlined_of_read accepted
    refine ⟨⟨_, run.trail, rfl⟩, lines_of_read accepted, ?_⟩
    intro place inside
    have size : catalog.size = (codeLines text).length := run.size_eq
    obtain ⟨entry, stored⟩ : ∃ entry, catalog.entries[place]? = some entry :=
      ⟨_, Array.getElem?_eq_getElem (Nat.lt_of_lt_of_eq inside size.symm)⟩
    have parent := outlined.parents place entry stored
    constructor
    · simp [parent?, stored, parent]
    · simp [roots, mem_placesBelow, stored, parent]

theorem parents_follow_indentation_two_fields :
    ∃ layout catalog, ({} : Settings).layout = .ok layout ∧
      read {} layout "LW_A\n  _F # first\n\n    _V\n  _G\nLW_B\n" = .ok catalog ∧
      catalog.toList.map Entry.parent? = [none, some 0, some 1, some 0, none] ∧
      ∀ place < 5, catalog.parent? place = outer? (widthAt [0, 2, 4, 2, 0]) place := by
  have parents : ((read {} ⟨8, 8, 14, by decide⟩ "LW_A\n  _F # first\n\n    _V\n  _G\nLW_B\n").toOption.map
      fun catalog => catalog.toList.map Entry.parent?) = some [none, some 0, some 1, some 0, none] := by
    decide +kernel
  have widths : (codeLines "LW_A\n  _F # first\n\n    _V\n  _G\nLW_B\n").map CodeLine.width = [0, 2, 4, 2, 0] := by
    decide +kernel
  obtain ⟨catalog, accepted, parents⟩ := Option.map_eq_some_iff.mp parents
  rw [toOption_eq_some] at accepted
  obtain ⟨_, _, followed⟩ := parents_follow_indentation.2.2 _ _ _ _ accepted
  rw [widths, ← List.length_map CodeLine.width, widths] at followed
  exact ⟨_, catalog, rfl, accepted, parents, fun place inside => (followed place inside).1⟩

end RegisterCatalog.Catalog
