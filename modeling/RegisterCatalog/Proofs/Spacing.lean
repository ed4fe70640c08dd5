import Mathlib.Order.Monotone.Basic
import RegisterCatalog.Proofs.Appending
import RegisterCatalog.Proofs.OffsideRule

/-! How a text is laid out. The words of its lines and the order of their indentations decide what is read;
comments, blank lines, the spaces between words and the numbers of lines do not. -/

namespace RegisterCatalog.Outline

/-- Only the order of the widths decides where a line stands. -/
theorem place_widened {widen : Nat → Nat} (increasing : StrictMono widen) (measure : α → Nat) (opened : List α)
    (width : Nat) : place (widen ∘ measure) opened (widen width) = place measure opened width := by
  cases opened with
  | nil => rfl
  | cons innermost outer =>
    simp only [place, Function.comp_apply, increasing.lt_iff_lt, increasing.injective.eq_iff]

end RegisterCatalog.Outline

namespace RegisterCatalog.Entry
open Outcome

variable {settings : Settings} {layout : Layout}

/-- The entry without the number of its line. -/
def unnumbered (entry : Entry) : Entry := { entry with line := 0 }

def Above.unnumbered (above : Above) : Above := { above with entry := above.entry.unnumbered }

private theorem addSynonym_unnumbered (entry : Entry) (synonym : String) :
    entry.unnumbered.addSynonym synonym = (entry.addSynonym synonym).unnumbered := by
  rw [addSynonym_eq, addSynonym_eq]
  rfl

private theorem applyAllowed_unnumbered (entry : Entry) (directive : Directive) :
    applyAllowed settings entry.unnumbered directive = (applyAllowed settings entry directive).map unnumbered := by
  have checked : checkVirtual settings entry.unnumbered = checkVirtual settings entry := rfl
  cases directive with
  | arrayLimit limit | replaceArray old new limit | replaceString old new => rfl
  | synonym name => exact congrArg Except.ok (addSynonym_unnumbered entry name)
  | domain name =>
    simp only [applyAllowed]
    rw [show entry.unnumbered.domain? = entry.domain? from rfl]
    split <;> rfl
  | virtualImage target =>
    simp only [applyAllowed, checked]
    cases checkVirtual settings entry with
    | error fault => rfl
    | ok free =>
      simp only [bind, Except.bind]
      split <;> rfl
  | virtualExport =>
    simp only [applyAllowed, checked]
    cases checkVirtual settings entry <;> rfl
  | replaceStride old stride limit =>
    simp only [applyAllowed]
    split <;> rfl
  | capability name =>
    simp only [applyAllowed]
    rw [show entry.unnumbered.capability? = entry.capability? from rfl]
    split
    · rfl
    · split <;> rfl

private theorem apply_unnumbered (entry : Entry) (directive : Directive) :
    apply settings entry.unnumbered directive = (apply settings entry directive).map unnumbered := by
  unfold apply
  rw [show entry.unnumbered.level = entry.level from rfl]
  split
  · exact applyAllowed_unnumbered entry directive
  · rfl

private theorem declare_unnumbered (line : Nat) (level : Level) (above? : Option Above) (previous? : Option Entry) (word : String) :
    declare settings layout 0 level (above?.map Above.unnumbered) (previous?.map unnumbered) word =
      (declare settings layout line level above? previous? word).map unnumbered := by
  have ordered (name : String) : checkOrder (previous?.map unnumbered) name = checkOrder previous? name := by
    cases previous? <;> rfl
  have counted : numberAfter settings.limits level (previous?.map unnumbered) = numberAfter settings.limits level previous? := by
    cases previous? <;> rfl
  unfold declare
  rw [counted]
  cases nameOf level word with
  | error fault => rfl
  | ok name =>
    simp only [bind, Except.bind, ordered]
    cases checkOrder previous? name with
    | error fault => rfl
    | ok sorted =>
      cases numberAfter settings.limits level previous? with
      | error fault => rfl
      | ok number =>
        cases above? with
        | some above => rfl
        | none =>
          simp only [Option.map_none]
          split <;> rfl

/-- What a line says does not depend on its number, nor on the numbers of the lines around it. -/
theorem ofWords_unnumbered (line : Nat) (level : Level) (above? : Option Above) (previous? : Option Entry) (word : String)
    (rest : List String) :
    ofWords settings layout 0 level (above?.map Above.unnumbered) (previous?.map unnumbered) word rest =
      (ofWords settings layout line level above? previous? word rest).map unnumbered := by
  unfold ofWords
  rw [declare_unnumbered line]
  cases declare settings layout line level above? previous? word with
  | error fault => rfl
  | ok entry =>
    cases Directive.readAll rest with
    | error fault => rfl
    | ok directives => exact foldlM_view apply_unnumbered directives entry

end RegisterCatalog.Entry

namespace RegisterCatalog

def SourceLine.words (line : SourceLine) : List String := Text.words (Text.stripComment line.text)

def SourceLine.width (line : SourceLine) : Nat := Catalog.indentation (Text.stripComment line.text)

/-- The lines of a text that are more than comments and blanks. -/
def declaringLines (text : String) : List SourceLine := (sourceLines text).filter fun line => line.words ≠ []

/-- The second line has the words of the first, and its indentation is that of the first as `widen` changes it. -/
def SourceLine.Respaced (widen : Nat → Nat) (first second : SourceLine) : Prop :=
  (second.words, second.width) = (first.words, widen first.width)

/-- Two readings end with related results, or with the same fault on lines of one place. -/
inductive EndAlike (related : α → β → Prop) (lines others : List SourceLine) : Except LineFault α → Except LineFault β → Prop
  | done {one : α} {two : β} (same : related one two) : EndAlike related lines others (.ok one) (.ok two)
  | failed (place : Nat) {line other : SourceLine} {fault : Fault} (first : lines[place]? = some line)
    (second : others[place]? = some other) : EndAlike related lines others (.error ⟨line, fault⟩) (.error ⟨other, fault⟩)

theorem EndAlike.bind {related : α → β → Prop} {after : γ → δ → Prop} {lines others : List SourceLine}
    {one : Except LineFault α} {two : Except LineFault β} {next : α → Except LineFault γ} {other : β → Except LineFault δ}
    (alike : EndAlike related lines others one two)
    (goesOn : ∀ first second, one = .ok first → two = .ok second → related first second →
      EndAlike after lines others (next first) (other second)) :
    EndAlike after lines others (one >>= next) (two >>= other) := by
  cases alike with
  | done same => exact goesOn _ _ rfl rfl same
  | failed place first second => exact .failed place first second

theorem EndAlike.cons {related : α → β → Prop} {line other : SourceLine} {lines others : List SourceLine}
    {one : Except LineFault α} {two : Except LineFault β} (alike : EndAlike related lines others one two) :
    EndAlike related (line :: lines) (other :: others) one two := by
  cases alike with
  | done same => exact .done same
  | failed place first second => exact .failed (place + 1) first second

theorem getElem?_sourceLines {text : String} {line : SourceLine} (member : line ∈ sourceLines text) :
    (sourceLines text)[line.number - 1]? = some line := by
  obtain ⟨⟨written, number⟩, inside, rfl⟩ := List.mem_map.mp member
  obtain ⟨positive, found⟩ := List.mk_mem_zipIdx_iff_le_and_getElem?_sub.mp inside
  simp [sourceLines, found]
  omega

namespace Catalog
open Outcome Outline

variable {settings : Settings} {layout : Layout} {widen : Nat → Nat}

/-- The catalog without the numbers of the lines. -/
def unnumbered (catalog : Catalog) : Catalog := { entries := catalog.entries.map Entry.unnumbered }

def Opened.respaced (widen : Nat → Nat) (opened : Opened) : Opened :=
  { opened.toAbove.unnumbered with width := widen opened.width }

namespace Reading

/-- The reading as it would be after lines of other widths and without numbers. -/
def respaced (widen : Nat → Nat) (reading : Reading) : Reading :=
  ⟨reading.catalog.unnumbered, reading.opened.map (Opened.respaced widen)⟩

theorem add_respaced (increasing : StrictMono widen) (reading : Reading) (line width : Nat) (word : String)
    (rest : List String) :
    (reading.respaced widen).add settings layout 0 (widen width) word rest =
      (reading.add settings layout line width word rest).map (respaced widen) := by
  have placed : place Opened.width (reading.respaced widen).opened (widen width) =
      (place Opened.width reading.opened width).map (Place.map (Opened.respaced widen)) := by
    rw [respaced, place_map]
    exact congrArg _ (place_widened increasing Opened.width reading.opened width)
  unfold add
  rw [placed]
  cases place Opened.width reading.opened width with
  | error fault => rfl
  | ok found =>
    simp only [Except.map, bind, Except.bind, Place.map, List.length_map]
    cases Level.ofDepth? found.above.length with
    | none => rfl
    | some level =>
      have above : (found.above.map (Opened.respaced widen)).head?.map Opened.toAbove =
          (found.above.head?.map Opened.toAbove).map Entry.Above.unnumbered := by
        simp only [List.head?_map, Option.map_map]
        rfl
      have previous : (found.previous?.map (Opened.respaced widen)).map (fun previous => previous.entry) =
          (found.previous?.map fun previous => previous.entry).map Entry.unnumbered := by
        simp only [Option.map_map]
        rfl
      simp only
      rw [above, previous, Entry.ofWords_unnumbered line]
      cases Entry.ofWords settings layout line level (found.above.head?.map Opened.toAbove)
          (found.previous?.map fun previous => previous.entry) word rest with
      | error fault => rfl
      | ok entry => simp [Except.map, pure, Except.pure, respaced, unnumbered, Catalog.push, Opened.respaced,
          Entry.Above.unnumbered, Catalog.size]

theorem readLine_eq (reading : Reading) {line : SourceLine} {word : String} {rest : List String}
    (words : line.words = word :: rest) :
    reading.readLine settings layout line =
      (reading.add settings layout line.number line.width word rest).mapError (⟨line, ·⟩) := by
  have split : Text.words (Text.stripComment line.text) = word :: rest := words
  simp only [readLine, split]
  rfl

theorem readLines_declaring (text : String) (reading : Reading) :
    (declaringLines text).foldlM (readLine settings layout) reading =
      (sourceLines text).foldlM (readLine settings layout) reading := by
  unfold declaringLines
  induction sourceLines text generalizing reading with
  | nil => rfl
  | cons line rest ih =>
    by_cases blank : line.words = []
    · have unchanged : reading.readLine settings layout line = .ok reading := by
        have empty : Text.words (Text.stripComment line.text) = [] := blank
        simp only [readLine, empty]
      rw [List.filter_cons_of_neg (by simpa using blank), List.foldlM_cons, unchanged, ih]
      rfl
    · rw [List.filter_cons_of_pos (by simpa using blank), List.foldlM_cons, List.foldlM_cons]
      simp only [ih]

theorem readLine_alike (increasing : StrictMono widen) {first second : Reading} {line other : SourceLine}
    (lines others : List SourceLine) (same : first.respaced widen = second.respaced id) (declares : line.words ≠ [])
    (respaced : line.Respaced widen other) :
    EndAlike (fun one two => one.respaced widen = two.respaced id) (line :: lines) (other :: others)
      (first.readLine settings layout line) (second.readLine settings layout other) := by
  obtain ⟨word, rest, words⟩ := List.exists_cons_of_ne_nil declares
  obtain ⟨sameWords, width⟩ := Prod.mk.inj respaced
  rw [readLine_eq first words, readLine_eq second (sameWords.trans words), width]
  have seen : (first.add settings layout line.number line.width word rest).map (Reading.respaced widen) =
      (second.add settings layout other.number (widen line.width) word rest).map (Reading.respaced id) := by
    rw [← add_respaced increasing, ← add_respaced strictMono_id, same, id_eq]
  rcases map_eq_map seen with ⟨fault, one, two⟩ | ⟨one, two, added, joined, alike⟩
  · rw [one, two]
    exact .failed 0 rfl rfl
  · rw [added, joined]
    exact .done alike

theorem readLines_alike (increasing : StrictMono widen) {lines others : List SourceLine}
    (respaced : List.Forall₂ (SourceLine.Respaced widen) lines others) (declares : ∀ line ∈ lines, line.words ≠ [])
    {first second : Reading} (same : first.respaced widen = second.respaced id) :
    EndAlike (fun one two => one.respaced widen = two.respaced id) lines others
      (lines.foldlM (readLine settings layout) first) (others.foldlM (readLine settings layout) second) := by
  induction respaced generalizing first second with
  | nil => exact .done same
  | @cons line other lines others respaced _ ih =>
    rw [List.forall_mem_cons] at declares
    rw [List.foldlM_cons, List.foldlM_cons]
    apply (readLine_alike increasing lines others same declares.1 respaced).bind
    intro one two _ _ alike
    exact (ih declares.2 alike).cons

end Reading

theorem faultAmong?_alike {entries others : List Entry} (same : entries.map Entry.unnumbered = others.map Entry.unnumbered)
    (symbols : Std.TreeSet String) :
    (faultAmong? symbols entries = none ∧ faultAmong? symbols others = none) ∨
      ∃ (place : Nat) (entry other : Entry) (fault : Fault), entries[place]? = some entry ∧ others[place]? = some other ∧
        faultAmong? symbols entries = some (entry, fault) ∧ faultAmong? symbols others = some (other, fault) := by
  induction entries generalizing others symbols with
  | nil =>
    cases others with
    | nil => exact .inl ⟨rfl, rfl⟩
    | cons other rest => cases same
  | cons entry entries ih =>
    cases others with
    | nil => cases same
    | cons other others =>
      obtain ⟨first, rest⟩ := List.cons.inj same
      have vain : other.unresolved? = entry.unresolved? := by
        change other.unnumbered.unresolved? = entry.unnumbered.unresolved?
        rw [first]
      have symbol : other.symbol = entry.symbol := by
        change other.unnumbered.symbol = entry.unnumbered.symbol
        rw [first]
      simp only [faultAmong?, vain, symbol]
      cases entry.unresolved? with
      | some part => exact .inr ⟨0, entry, other, _, rfl, rfl, rfl, rfl⟩
      | none =>
        by_cases known : symbols.contains entry.symbol
        · simp only [known, if_true]
          exact .inr ⟨0, entry, other, _, rfl, rfl, rfl, rfl⟩
        · simp only [known]
          rcases ih rest (symbols.insert entry.symbol) with none | ⟨place, one, two, fault, here, there, found, also⟩
          · exact .inl none
          · exact .inr ⟨place + 1, one, two, fault, here, there, found, also⟩

theorem numbers_of_declaringLines (text : String) :
    (codeLines text).map CodeLine.number = (declaringLines text).map SourceLine.number := by
  unfold codeLines declaringLines
  induction sourceLines text with
  | nil => rfl
  | cons line rest ih =>
    cases words : line.words with
    | nil =>
      have blank : Text.words (Text.stripComment line.text) = [] := words
      simpa [CodeLine.ofSource?, blank, words] using ih
    | cons word others =>
      have split : Text.words (Text.stripComment line.text) = word :: others := words
      simpa [CodeLine.ofSource?, split, words] using ih

/-- An entry points back to the line that declares it. -/
theorem Reading.Run.line_of_entry {text : String} {reading : Reading} {place : Nat} {entry : Entry}
    (run : Run settings layout (codeLines text) reading) (stored : reading.catalog.toList[place]? = some entry) :
    (declaringLines text)[place]? =
      some ⟨entry.line, (((sourceLines text)[entry.line - 1]?).map SourceLine.text).getD ""⟩ := by
  have numbers : (declaringLines text).map SourceLine.number = reading.catalog.toList.map Entry.line := by
    rw [run.numbers, numbers_of_declaringLines]
  have number : ((declaringLines text)[place]?).map SourceLine.number = some entry.line := by
    rw [← List.getElem?_map, numbers, List.getElem?_map, stored]
    rfl
  obtain ⟨line, found, number⟩ := Option.map_eq_some_iff.mp number
  have member : line ∈ sourceLines text := List.mem_of_mem_filter (List.mem_of_getElem? found)
  rw [← number, getElem?_sourceLines member, found]
  rfl

/-- How a text is laid out does not matter. If the lines of two texts that declare anything have the same words,
and indentations in the same order, then both texts give catalogs that differ in nothing but the numbers of
lines, or both have the same fault on lines of the same place. -/
theorem reading_ignores_spacing {first second : String} (clean : '\t' ∉ first.toList) (tidy : '\t' ∉ second.toList)
    (increasing : StrictMono widen)
    (respaced : (declaringLines second).map (fun line => (line.words, line.width)) =
      (declaringLines first).map fun line => (line.words, widen line.width)) :
    EndAlike (fun one two => one.unnumbered = two.unnumbered) (declaringLines first) (declaringLines second)
      (read settings layout first) (read settings layout second) := by
  have lines : List.Forall₂ (SourceLine.Respaced widen) (declaringLines first) (declaringLines second) := by
    rw [← List.forall₂_eq_eq_eq, List.forall₂_map_left_iff, List.forall₂_map_right_iff] at respaced
    exact respaced.flip
  have declares : ∀ line ∈ declaringLines first, line.words ≠ [] := by
    intro line member
    simpa using List.of_mem_filter member
  have readings : EndAlike (fun one two => one.respaced widen = two.respaced id) (declaringLines first) (declaringLines second)
      ((sourceLines first).foldlM (Reading.readLine settings layout) {})
      ((sourceLines second).foldlM (Reading.readLine settings layout) {}) := by
    rw [← Reading.readLines_declaring first, ← Reading.readLines_declaring second]
    apply Reading.readLines_alike increasing lines declares
    rfl
  rw [read_of_clean clean, read_of_clean tidy]
  apply readings.bind
  intro one two collected gathered same
  have catalogs : one.catalog.unnumbered = two.catalog.unnumbered := congrArg Reading.catalog same
  have entries : one.catalog.toList.map Entry.unnumbered = two.catalog.toList.map Entry.unnumbered := by
    simpa [unnumbered, toList] using congrArg (fun catalog => catalog.entries.toList) catalogs
  unfold Reading.finish
  rcases faultAmong?_alike entries ∅ with ⟨none, neither⟩ | ⟨place, entry, other, fault, here, there, found, also⟩
  · rw [none, neither]
    exact .done catalogs
  · rw [found, also]
    have firstRun : Reading.Run settings layout (codeLines first) one := Reading.Run.start.readLines collected
    have secondRun : Reading.Run settings layout (codeLines second) two := Reading.Run.start.readLines gathered
    exact .failed place (firstRun.line_of_entry here) (secondRun.line_of_entry there)

theorem reading_ignores_spacing_shifted :
    ∃ layout one two, ({} : Settings).layout = .ok layout ∧
      read {} layout "LW_A\n  _F # first\n    _V 4\n  _G\n" = .ok one ∧
      read {} layout "# head\n LW_A\n\n       _F\n             _V   4\n       _G" = .ok two ∧
      one.unnumbered = two.unnumbered ∧
      one.toList.map Entry.line = [1, 2, 3, 4] ∧ two.toList.map Entry.line = [2, 4, 5, 6] := by
  have ones : ((read {} ⟨8, 8, 14, by decide⟩ "LW_A\n  _F # first\n    _V 4\n  _G\n").toOption.map
      fun one => one.toList.map Entry.line) = some [1, 2, 3, 4] := by
    decide +kernel
  have twos : ((read {} ⟨8, 8, 14, by decide⟩
      "# head\n LW_A\n\n       _F\n             _V   4\n       _G").toOption.map
      fun two => two.toList.map Entry.line) = some [2, 4, 5, 6] := by
    decide +kernel
  obtain ⟨one, done, ones⟩ := Option.map_eq_some_iff.mp ones
  obtain ⟨two, also, twos⟩ := Option.map_eq_some_iff.mp twos
  rw [toOption_eq_some] at done also
  have increasing : StrictMono fun width => 3 * width + 1 := by
    intro narrow wide less
    simp only
    omega
  have alike := @reading_ignores_spacing {} ⟨8, 8, 14, by decide⟩ _ "LW_A\n  _F # first\n    _V 4\n  _G\n"
    "# head\n LW_A\n\n       _F\n             _V   4\n       _G" (by decide) (by decide) increasing
    (by decide +kernel)
  rw [done, also] at alike
  cases alike with
  | done same => exact ⟨_, one, two, rfl, done, also, same, ones, twos⟩

end Catalog
end RegisterCatalog
