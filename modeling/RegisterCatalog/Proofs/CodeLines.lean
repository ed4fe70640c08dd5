import RegisterCatalog.Proofs.OpenEntries

/-! The lines of a text that declare entries. Comments and blank lines drop out first, and a catalog
then holds one entry for each line that is left, at the same place. -/

namespace RegisterCatalog

/-- A line that declares an entry. -/
structure CodeLine where
  number : Nat
  width : Nat
  word : String
  rest : List String

def CodeLine.ofSource? (line : SourceLine) : Option CodeLine :=
  let code := Text.stripComment line.text
  match Text.words code with
  | [] => none
  | word :: rest => some ⟨line.number, Catalog.indentation code, word, rest⟩

def codeLines (text : String) : List CodeLine := (sourceLines text).filterMap CodeLine.ofSource?

theorem Entry.declare_line {settings : Settings} {layout : Layout} {line : Nat} {level : Level} {above? : Option Above}
    {previous? : Option Entry} {word : String} {entry : Entry}
    (done : declare settings layout line level above? previous? word = .ok entry) : entry.line = line := by
  obtain ⟨name, _, done⟩ := Outcome.bind_eq_ok.mp done
  obtain ⟨_, _, done⟩ := Outcome.bind_eq_ok.mp done
  obtain ⟨number, _, done⟩ := Outcome.bind_eq_ok.mp done
  cases above? with
  | none =>
    dsimp only at done
    split at done <;> cases done
    rfl
  | some above =>
    cases done
    rfl

namespace Catalog
open Outcome

variable {settings : Settings} {layout : Layout}

/-- The entry is what its line says. Unless it is an address, it is below an entry that the catalog has. -/
def Declares (settings : Settings) (layout : Layout) (catalog : Catalog) (line : CodeLine) (entry : Entry) : Prop :=
  ∃ level above? previous?,
    Entry.ofWords settings layout line.number level above? previous? line.word line.rest = .ok entry ∧
      (above? = none ↔ level = .address) ∧ ∀ above ∈ above?, catalog.entries[above.place]? = some above.entry

theorem Declares.line_eq {catalog : Catalog} {line : CodeLine} {entry : Entry}
    (declares : Declares settings layout catalog line entry) : entry.line = line.number := by
  obtain ⟨level, above?, previous?, done, _⟩ := declares
  obtain ⟨declared, first, kept⟩ := Entry.ofWords_eq_ok done
  exact kept.line.trans (Entry.declare_line first)

/-- Ends the reading of a text with these lines: the catalog as a whole is checked. -/
def Reading.finish (lines : List SourceLine) (reading : Reading) : Except LineFault Catalog :=
  match faultAmong? ∅ reading.catalog.toList with
  | none => .ok reading.catalog
  | some (entry, fault) =>
    .error ⟨⟨entry.line, ((lines[entry.line - 1]?).map SourceLine.text).getD ""⟩, fault⟩

theorem Reading.finish_eq_ok {lines : List SourceLine} {reading : Reading} {catalog : Catalog} :
    reading.finish lines = .ok catalog ↔ faultAmong? ∅ reading.catalog.toList = none ∧ reading.catalog = catalog := by
  unfold finish
  split
  next sound => simp [sound]
  next found => simp [found]

theorem read_eq (settings : Settings) (layout : Layout) (text : String) :
    read settings layout text =
      match (sourceLines text).find? fun line => Text.contains "\t" line.text with
      | some line => .error ⟨line, .tabCharacter⟩
      | none => (sourceLines text).foldlM (Reading.readLine settings layout) {} >>= Reading.finish (sourceLines text) := by
  rfl

namespace Reading

/-- A reader that has gone through these lines. -/
inductive Run (settings : Settings) (layout : Layout) : List CodeLine → Reading → Prop
  | start : Run settings layout [] {}
  | add {lines : List CodeLine} {line : CodeLine} {before after : Reading} (earlier : Run settings layout lines before)
    (done : before.add settings layout line.number line.width line.word line.rest = .ok after) :
    Run settings layout (lines ++ [line]) after

namespace Run

variable {lines : List CodeLine} {reading : Reading}

theorem reached (run : Run settings layout lines reading) : Reached settings layout reading := by
  induction run with
  | start => exact .start
  | add _ done ih => exact .add ih done

theorem readLine {before after : Reading} {source : SourceLine} (run : Run settings layout lines before)
    (done : before.readLine settings layout source = .ok after) :
    Run settings layout (lines ++ (CodeLine.ofSource? source).toList) after := by
  unfold Reading.readLine at done
  unfold CodeLine.ofSource?
  cases code : Text.words (Text.stripComment source.text) with
  | nil =>
    simp only [code] at done
    cases done
    simpa only [code, Option.toList_none, List.append_nil] using run
  | cons word rest =>
    simp only [code] at done
    simp only [code, Option.toList_some]
    apply Run.add run
    dsimp only
    exact mapError_eq_ok done

theorem readLines {sources : List SourceLine} {before after : Reading} (run : Run settings layout lines before)
    (done : sources.foldlM (Reading.readLine settings layout) before = .ok after) :
    Run settings layout (lines ++ sources.filterMap CodeLine.ofSource?) after := by
  induction sources generalizing lines before with
  | nil =>
    cases done
    simpa using run
  | cons source sources ih =>
    rw [List.foldlM_cons] at done
    obtain ⟨middle, moved, done⟩ := bind_eq_ok.mp done
    have later := ih (run.readLine moved) done
    cases code : CodeLine.ofSource? source <;> simpa [List.filterMap_cons, code] using later

theorem size_eq (run : Run settings layout lines reading) : reading.catalog.size = lines.length := by
  induction run with
  | start => rfl
  | add _ done ih =>
    obtain ⟨place, level, entry, _, _, _, rfl⟩ := add_eq_ok done
    simp [ih]

theorem declares (run : Run settings layout lines reading) :
    List.Forall₂ (Declares settings layout reading.catalog) lines reading.catalog.toList := by
  induction run with
  | start => exact .nil
  | @add lines line before after earlier done ih =>
    obtain ⟨place, level, entry, placed, deep, declared, rfl⟩ := add_eq_ok done
    have kept : ∀ (place : Nat) (old : Entry), before.catalog.entries[place]? = some old →
        (before.catalog.push entry).entries[place]? = some old := by
      intro place old stored
      rw [getElem?_push, if_neg (Nat.ne_of_lt (lt_size stored))]
      exact stored
    rw [toList_push]
    apply List.rel_append
    · apply ih.imp
      intro line old declares
      obtain ⟨level, above?, previous?, made, top, stored⟩ := declares
      exact ⟨level, above?, previous?, made, top, fun above here => kept _ _ (stored above here)⟩
    · refine .cons ⟨level, _, _, declared, ?_, ?_⟩ .nil
      · rw [Option.map_eq_none_iff, List.head?_eq_none_iff, ← List.length_eq_zero_iff, ← deep]
        cases level <;> simp [Level.depth]
      intro above here
      obtain ⟨direct, first, rfl⟩ := Option.map_eq_some_iff.mp here
      have inside := Outline.above_suffix placed
      exact kept _ _ (earlier.reached.linked.stored direct (inside.subset (List.mem_of_mem_head? first)))

theorem numbers (run : Run settings layout lines reading) :
    reading.catalog.toList.map Entry.line = lines.map CodeLine.number := by
  have same : List.Forall₂ (· = ·) (lines.map CodeLine.number) (reading.catalog.toList.map Entry.line) := by
    rw [List.forall₂_map_left_iff, List.forall₂_map_right_iff]
    exact run.declares.imp fun _ _ declares => declares.line_eq.symm
  rw [List.forall₂_eq_eq_eq] at same
  exact same.symm

end Run
end Reading

variable {text : String} {catalog : Catalog}

theorem run_of_read (accepted : read settings layout text = .ok catalog) :
    ∃ opened, Reading.Run settings layout (codeLines text) ⟨catalog, opened⟩ := by
  rw [read_eq] at accepted
  split at accepted
  · cases accepted
  · obtain ⟨reading, collected, accepted⟩ := bind_eq_ok.mp accepted
    obtain ⟨_, rfl⟩ := Reading.finish_eq_ok.mp accepted
    exact ⟨reading.opened, Reading.Run.start.readLines collected⟩

theorem declares_of_read (accepted : read settings layout text = .ok catalog) :
    List.Forall₂ (Declares settings layout catalog) (codeLines text) catalog.toList := by
  obtain ⟨_, run⟩ := run_of_read accepted
  exact run.declares

end Catalog
end RegisterCatalog
