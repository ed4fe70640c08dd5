import RegisterCatalog.Proofs.CodeLines
import RegisterCatalog.Proofs.Occurrences

/-! Catalogs grow at the end. More lines add entries behind those that are there and reach back into none
of them, so every entry keeps its id; and a fault on a line stays, whatever comes after it. -/

namespace RegisterCatalog.Chars

def LinesAfter.followedBy (after : LinesAfter) (later : List (List Char)) : LinesAfter :=
  { after with lines := after.lines ++ later }

theorem LinesAfter.read_lines_ne_nil (c : Char) {after : LinesAfter} (some : after.lines ≠ []) :
    (after.read c).lines ≠ [] := by
  unfold read
  split
  · simp
  · split
    · exact some
    · split <;> simp

theorem LinesAfter.read_followedBy (c : Char) {after : LinesAfter} (later : List (List Char)) (some : after.lines ≠ []) :
    (after.followedBy later).read c = (after.read c).followedBy later := by
  obtain ⟨lines, atFeed⟩ := after
  cases lines with
  | nil => exact absurd rfl some
  | cons line rest =>
    by_cases feed : (c == '\n') = true
    · simp [read, followedBy, feed]
    · by_cases ending : (c == '\r' && atFeed) = true <;> simp [read, followedBy, feed, ending]

theorem foldr_read_followedBy (text : List Char) {after : LinesAfter} (later : List (List Char)) (some : after.lines ≠ []) :
    text.foldr LinesAfter.read (after.followedBy later) = (text.foldr LinesAfter.read after).followedBy later ∧
      (text.foldr LinesAfter.read after).lines ≠ [] := by
  induction text with
  | nil => exact ⟨rfl, some⟩
  | cons c rest ih =>
    obtain ⟨same, more⟩ := ih
    rw [List.foldr_cons, List.foldr_cons, same, LinesAfter.read_followedBy c later more]
    exact ⟨rfl, LinesAfter.read_lines_ne_nil c more⟩

/-- A text that is empty or ends with a line feed can be continued without changing its lines. -/
theorem lines_append {text : List Char} (more : List Char) (ended : text = [] ∨ text.getLast? = some '\n') :
    lines (text ++ more) = lines text ++ lines more := by
  rcases ended with rfl | ended
  · rfl
  · obtain ⟨start, rfl⟩ := List.getLast?_eq_some_iff.mp ended
    have feed : LinesAfter.read '\n' (more.foldr LinesAfter.read {}) =
        (LinesAfter.read '\n' {}).followedBy (lines more) := rfl
    have opened : (LinesAfter.read '\n' {}).lines ≠ [] := by simp [LinesAfter.read]
    obtain ⟨split, _⟩ := foldr_read_followedBy start (lines more) opened
    have whole : lines (start ++ ['\n'] ++ more) =
        (start.foldr LinesAfter.read (LinesAfter.read '\n' (more.foldr LinesAfter.read {}))).lines := by
      simp [lines]
    rw [whole, feed, split]
    simp [lines, LinesAfter.followedBy]

theorem mem_of_mem_lines {text line : List Char} {c : Char} (member : line ∈ lines text) (inside : c ∈ line) :
    c ∈ text := by
  unfold lines at member
  induction text generalizing line with
  | nil => simp at member
  | cons first rest ih =>
    rw [List.foldr_cons] at member
    generalize rest.foldr LinesAfter.read {} = after at member ih
    unfold LinesAfter.read at member
    split at member
    · rcases List.mem_cons.mp member with rfl | member
      · simp at inside
      · exact List.mem_cons_of_mem _ (ih member inside)
    · split at member
      · exact List.mem_cons_of_mem _ (ih member inside)
      · split at member
        next empty =>
          rw [List.mem_singleton.mp member] at inside
          exact List.mem_singleton.mp inside ▸ List.mem_cons_self
        next line later known =>
          rcases List.mem_cons.mp member with rfl | member
          · rcases List.mem_cons.mp inside with rfl | inside
            · exact List.mem_cons_self
            · exact List.mem_cons_of_mem _ (ih (known ▸ List.mem_cons_self) inside)
          · exact List.mem_cons_of_mem _ (ih (known ▸ List.mem_cons_of_mem _ member) inside)

theorem mem_of_contains {text : List Char} {c : Char} (found : contains [c] text) : c ∈ text :=
  (contains_iff.mp found).mem List.mem_cons_self

end RegisterCatalog.Chars

namespace RegisterCatalog

theorem sourceLines_append {text : String} (more : String) (ended : text = "" ∨ text.toList.getLast? = some '\n') :
    ∃ later, sourceLines (text ++ more) = sourceLines text ++ later := by
  have split : Text.lines (text ++ more) = Text.lines text ++ Text.lines more := by
    have ended : text.toList = [] ∨ text.toList.getLast? = some '\n' := by simpa using ended
    simp only [Text.lines, String.toList_append, Chars.lines_append more.toList ended, List.map_append]
  rw [sourceLines, split, List.zipIdx_append, List.map_append]
  exact ⟨_, rfl⟩

theorem tabs_eq_none {text : String} (clean : '\t' ∉ text.toList) :
    (sourceLines text).find? (fun line => Text.contains "\t" line.text) = none := by
  rw [List.find?_eq_none]
  intro line member found
  obtain ⟨⟨written, number⟩, inside, rfl⟩ := List.mem_map.mp member
  obtain ⟨chars, known, rfl⟩ := List.mem_map.mp (List.fst_mem_of_mem_zipIdx inside)
  have tab : '\t' ∈ chars := by
    apply Chars.mem_of_contains
    simpa [Text.contains] using found
  exact clean (Chars.mem_of_mem_lines known tab)

namespace Catalog
open Outcome

variable {settings : Settings} {layout : Layout}

theorem placesBelow_prefix {catalog whole : Catalog} (first : catalog.toList <+: whole.toList) (above : Option Nat) :
    catalog.placesBelow above <+: whole.placesBelow above := by
  obtain ⟨rest, split⟩ := first
  unfold placesBelow
  rw [show whole.entries.toList = catalog.entries.toList ++ rest from split.symm, List.zipIdx_append,
    List.filter_append, List.map_append]
  exact List.prefix_append _ _

theorem faultAmong?_of_append {symbols : Std.TreeSet String} {entries more : List Entry}
    (sound : faultAmong? symbols (entries ++ more) = none) : faultAmong? symbols entries = none := by
  induction entries generalizing symbols with
  | nil => rfl
  | cons entry rest ih =>
    rw [List.cons_append] at sound
    unfold faultAmong? at sound ⊢
    cases vain : entry.unresolved? with
    | some part => simp [vain] at sound
    | none =>
      simp only [vain] at sound ⊢
      split at sound
      · cases sound
      next fresh =>
        rw [if_neg fresh]
        exact ih sound

/-- The faults that concern a catalog as a whole. -/
def Final (fault : Fault) : Prop :=
  (∃ part, fault = .unresolvedSubstitution part) ∨ ∃ symbol, fault = .duplicateSymbol symbol

theorem faultAmong?_eq_some {symbols : Std.TreeSet String} {entries : List Entry} {entry : Entry} {fault : Fault}
    (found : faultAmong? symbols entries = some (entry, fault)) : entry ∈ entries ∧ Final fault := by
  induction entries generalizing symbols with
  | nil => cases found
  | cons first rest ih =>
    unfold faultAmong? at found
    split at found
    · cases found
      exact ⟨List.mem_cons_self, .inl ⟨_, rfl⟩⟩
    · split at found
      · cases found
        exact ⟨List.mem_cons_self, .inr ⟨_, rfl⟩⟩
      · obtain ⟨later, final⟩ := ih found
        exact ⟨List.mem_cons_of_mem first later, final⟩

theorem Reading.final_of_finish {lines : List SourceLine} {reading : Reading} {located : LineFault}
    (failed : reading.finish lines = .error located) : Final located.fault := by
  unfold finish at failed
  split at failed
  · cases failed
  next found =>
    cases failed
    exact (faultAmong?_eq_some found).2

theorem Reading.readLine_prefix {before after : Reading} {line : SourceLine}
    (done : before.readLine settings layout line = .ok after) : before.catalog.toList <+: after.catalog.toList := by
  unfold Reading.readLine at done
  dsimp only at done
  split at done
  · cases done
    exact List.prefix_rfl
  · obtain ⟨_, _, entry, _, _, _, rfl⟩ := add_eq_ok (mapError_eq_ok done)
    rw [toList_push]
    exact List.prefix_append _ _

theorem read_of_clean {text : String} (clean : '\t' ∉ text.toList) :
    read settings layout text =
      (sourceLines text).foldlM (Reading.readLine settings layout) {} >>= Reading.finish (sourceLines text) := by
  rw [read_eq, tabs_eq_none clean]

/-- A text without tabs may be continued after any of its lines. If the whole is accepted, then so was the
text, and its entries are the first of the whole, with nothing changed but what stands below them. If a
line of the text is at fault, then the whole has the same fault there. -/
theorem read_append {text more : String} (ended : text = "" ∨ text.toList.getLast? = some '\n')
    (clean : '\t' ∉ text.toList) (cleanMore : '\t' ∉ more.toList) :
    (∀ whole, read settings layout (text ++ more) = .ok whole →
      ∃ catalog, read settings layout text = .ok catalog ∧ catalog.toList <+: whole.toList ∧
        catalog.roots <+: whole.roots ∧ ∀ place, catalog.children place <+: whole.children place) ∧
    ∀ located, read settings layout text = .error located →
      (∀ part, located.fault ≠ .unresolvedSubstitution part) → (∀ symbol, located.fault ≠ .duplicateSymbol symbol) →
        read settings layout (text ++ more) = .error located := by
  obtain ⟨later, split⟩ := sourceLines_append more ended
  have cleanWhole : '\t' ∉ (text ++ more).toList := by simp [clean, cleanMore]
  rw [read_of_clean clean, read_of_clean cleanWhole, split, List.foldlM_append]
  constructor
  · intro whole accepted
    obtain ⟨last, collected, finished⟩ := bind_eq_ok.mp accepted
    obtain ⟨reading, first, continued⟩ := bind_eq_ok.mp collected
    obtain ⟨sound, rfl⟩ := Reading.finish_eq_ok.mp finished
    have grown : reading.catalog.toList <+: last.catalog.toList :=
      foldlM_invariant (fun state => reading.catalog.toList <+: state.catalog.toList)
        (fun _ _ _ earlier done => earlier.trans (Reading.readLine_prefix done)) List.prefix_rfl continued
    have kept : faultAmong? ∅ reading.catalog.toList = none := by
      obtain ⟨rest, entries⟩ := grown
      rw [← entries] at sound
      exact faultAmong?_of_append sound
    exact ⟨reading.catalog, bind_eq_ok.mpr ⟨reading, first, Reading.finish_eq_ok.mpr ⟨kept, rfl⟩⟩, grown,
      placesBelow_prefix grown none, fun place => placesBelow_prefix grown (some place)⟩
  · intro located failed substituted distinct
    cases collected : (sourceLines text).foldlM (Reading.readLine settings layout) {} with
    | error fault =>
      rw [collected] at failed
      cases failed
      rfl
    | ok reading =>
      rw [collected] at failed
      rcases Reading.final_of_finish failed with ⟨part, same⟩ | ⟨symbol, same⟩
      · exact absurd same (substituted part)
      · exact absurd same (distinct symbol)

theorem read_append_more_fields :
    (∃ layout catalog whole, ({} : Settings).layout = .ok layout ∧
      read {} layout ("LW_A\n  _F\n" ++ "    _V -cap LWHAL_CAP_X\n  _G\nLW_B") = .ok whole ∧
      read {} layout "LW_A\n  _F\n" = .ok catalog ∧ catalog.toList <+: whole.toList ∧
      catalog.toList.map Entry.id = [0x40010000, 0x80010100] ∧
      whole.toList.map Entry.id = [0x40010000, 0x80010100, 0xc0010101, 0x80010200, 0x40020000]) ∧
    ∃ layout, ({} : Settings).layout = .ok layout ∧
      read {} layout ("LW_B\nLW_A\n" ++ "LW_C") = .error ⟨⟨2, "LW_A"⟩, .outOfOrder "LW_B" "LW_A"⟩ := by
  have ids : ((read {} ⟨8, 8, 14, by decide⟩ ("LW_A\n  _F\n" ++ "    _V -cap LWHAL_CAP_X\n  _G\nLW_B")).toOption.map
      fun whole => whole.toList.map Entry.id) = some [0x40010000, 0x80010100, 0xc0010101, 0x80010200, 0x40020000] := by
    decide +kernel
  have first : ((read {} ⟨8, 8, 14, by decide⟩ "LW_A\n  _F\n").toOption.map
      fun catalog => catalog.toList.map Entry.id) = some [0x40010000, 0x80010100] := by
    decide +kernel
  obtain ⟨whole, accepted, ids⟩ := Option.map_eq_some_iff.mp ids
  rw [toOption_eq_some] at accepted
  obtain ⟨catalog, done, entries, _⟩ :=
    (read_append (.inr (by decide)) (by decide) (by decide)).1 whole accepted
  rw [done] at first
  refine ⟨⟨_, catalog, whole, rfl, accepted, done, entries, Option.some.inj first, ids⟩, ⟨8, 8, 14, by decide⟩, rfl, ?_⟩
  refine (read_append (.inr (by decide)) (by decide) (by decide)).2 _ ?_ (by simp) (by simp)
  rfl

end Catalog
end RegisterCatalog
