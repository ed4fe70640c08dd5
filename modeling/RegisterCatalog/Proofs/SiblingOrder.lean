import RegisterCatalog.Proofs.Appending
import RegisterCatalog.Proofs.OrderFaults
import RegisterCatalog.Proofs.PreOrder

/-! Siblings are in natural order. A reader compares the name on a line only with the sibling right before it, and that
is enough: the order is transitive, and the entry that the reader compares with is always the last sibling so far. Only
two faults are about this order, and the comparison decides between them. -/

namespace RegisterCatalog
open Outcome

namespace Catalog

variable {settings : Settings} {layout : Layout}

/-- Both entries are stored, and the name of the first is the smaller one. -/
def InOrder (catalog : Catalog) (first second : Nat) : Prop :=
  ∃ one two, catalog.entries[first]? = some one ∧ catalog.entries[second]? = some two ∧
    Text.naturalCompare one.name two.name = .lt

theorem InOrder.trans {catalog : Catalog} {first second third : Nat} (one : catalog.InOrder first second)
    (two : catalog.InOrder second third) : catalog.InOrder first third := by
  obtain ⟨lower, middle, here, there, less⟩ := one
  obtain ⟨same, upper, again, beyond, more⟩ := two
  cases there.symm.trans again
  exact ⟨lower, upper, here, beyond, Std.TransCmp.lt_trans less more⟩

theorem InOrder.push {catalog : Catalog} {first second : Nat} (ordered : catalog.InOrder first second) (entry : Entry) :
    (catalog.push entry).InOrder first second := by
  obtain ⟨one, two, here, there, less⟩ := ordered
  exact ⟨one, two, stored_push here entry, stored_push there entry, less⟩

namespace Reading

theorem Reached.last_sibling {reading : Reading} (reached : Reached settings layout reading) :
    ∀ opened ∈ reading.opened, (reading.catalog.placesBelow opened.entry.parent?).getLast? = some opened.place := by
  induction reached with
  | start => simp
  | @add before after line width word rest earlier done ih =>
    have linked := earlier.linked
    obtain ⟨found, level, entry, placed, deep, declared, rfl⟩ := add_eq_ok done
    have inside := Outline.above_suffix placed
    have parent : entry.parent? = found.above.head?.map fun parent => parent.place := by
      rw [(Entry.ofWords_stands declared).parent, Option.map_map]
      rfl
    intro opened member
    rw [placesBelow_push]
    rcases List.mem_cons.mp member with rfl | member
    · rw [if_pos rfl, List.getLast?_concat]
    · have other : entry.parent? ≠ opened.entry.parent? := parent ▸ linked.parent_ne inside member
      rw [if_neg other, List.append_nil]
      exact ih opened (inside.subset member)

/-- A new entry comes after the sibling before it, and so after all of them. -/
theorem Reached.after_siblings {before : Reading} {found : Outline.Place Opened} {level : Level} {entry : Entry}
    {line width : Nat} {word : String} {rest : List String} (reached : Reached settings layout before)
    (placed : Outline.place Opened.width before.opened width = .ok found)
    (declared : Entry.ofWords settings layout line level (found.above.head?.map Opened.toAbove)
      (found.previous?.map fun previous => previous.entry) word rest = .ok entry)
    (ordered : (before.catalog.placesBelow entry.parent?).Pairwise before.catalog.InOrder) :
    ∀ place ∈ before.catalog.placesBelow entry.parent?, (before.catalog.push entry).InOrder place before.catalog.size := by
  have linked := reached.linked
  have parent : entry.parent? = found.above.head?.map fun parent => parent.place := by
    rw [(Entry.ofWords_stands declared).parent, Option.map_map]
    rfl
  rcases Outline.place_eq_ok placed with ⟨alone, _, _⟩ | ⟨previous, beside, within, _⟩
  · have none := linked.count_siblings placed
    rw [← parent, alone] at none
    rw [List.length_eq_zero_iff.mp none]
    simp
  · have member : previous ∈ before.opened := within.subset List.mem_cons_self
    have last := reached.last_sibling previous member
    rw [linked.parent _ _ within, ← parent] at last
    obtain ⟨others, split⟩ := List.getLast?_eq_some_iff.mp last
    rw [beside] at declared
    have next : (before.catalog.push entry).InOrder previous.place before.catalog.size :=
      ⟨previous.entry, entry, stored_push (linked.stored previous member) entry, by simp [getElem?_push],
        Entry.ofWords_after declared⟩
    rw [split, List.pairwise_append] at ordered
    intro place sibling
    rw [split, List.mem_append, List.mem_singleton] at sibling
    rcases sibling with earlier | rfl
    · exact ((ordered.2.2 place earlier _ List.mem_cons_self).push entry).trans next
    · exact next

theorem Reached.siblings_ordered {reading : Reading} (reached : Reached settings layout reading) (above : Option Nat) :
    (reading.catalog.placesBelow above).Pairwise reading.catalog.InOrder := by
  induction reached with
  | start => exact List.Pairwise.nil
  | @add before after line width word rest earlier done ih =>
    obtain ⟨found, level, entry, placed, deep, declared, rfl⟩ := add_eq_ok done
    have old := ih.imp fun ordered => InOrder.push ordered entry
    rw [placesBelow_push]
    by_cases here : entry.parent? = above
    · subst here
      rw [if_pos rfl, List.pairwise_append]
      refine ⟨old, List.pairwise_singleton _ _, ?_⟩
      intro first member second last
      cases List.mem_singleton.mp last
      exact earlier.after_siblings placed declared ih first member
    · rw [if_neg here, List.append_nil]
      exact old

/-- The line comes right after `sibling` below the same entry, and gives its own entry this name. -/
def Follows (reading : Reading) (line : CodeLine) (sibling : Entry) (name : String) : Prop :=
  ∃ found level, Outline.place Opened.width reading.opened line.width = .ok found ∧ level.depth = found.above.length ∧
    (found.previous?.map fun previous => previous.entry) = some sibling ∧ Entry.nameOf level line.word = .ok name

section OrderFaults

variable {reading : Reading} {line : CodeLine} {sibling : Entry} {name : String} {fault : Fault}

theorem Follows.last_sibling (follows : reading.Follows line sibling name) (reached : Reached settings layout reading) :
    ∃ place, (reading.catalog.placesBelow sibling.parent?).getLast? = some place ∧
      reading.catalog.entries[place]? = some sibling := by
  obtain ⟨found, level, placed, _, beside, _⟩ := follows
  rcases Outline.place_eq_ok placed with ⟨alone, _, _⟩ | ⟨previous, some, within, _⟩
  · simp [alone] at beside
  · have same : previous.entry = sibling := by simpa [some] using beside
    have member : previous ∈ reading.opened := within.subset List.mem_cons_self
    subst same
    exact ⟨previous.place, reached.last_sibling previous member, reached.linked.stored previous member⟩

theorem Follows.unique {other : Entry} {another : String} (one : reading.Follows line sibling name)
    (two : reading.Follows line other another) : sibling = other ∧ name = another := by
  obtain ⟨found, level, placed, deep, beside, named⟩ := one
  obtain ⟨again, depth, also, same, next, called⟩ := two
  cases placed.symm.trans also
  have equal : level = depth := Level.tag_inj (congrArg (· + 1) (deep.trans same.symm))
  subst equal
  exact ⟨Option.some.inj (beside.symm.trans next), Except.ok.inj (named.symm.trans called)⟩

theorem add_order_fault (about : fault.AboutOrder) :
    reading.add settings layout line.number line.width line.word line.rest = .error fault ↔
      ∃ sibling name, reading.Follows line sibling name ∧ Entry.checkOrder (some sibling) name = .error fault := by
  constructor
  · intro failed
    rcases bind_eq_error.mp failed with unplaced | ⟨found, placed, failed⟩
    · exact absurd about (Outline.place_blind _ _ fault unplaced)
    cases deep : Level.ofDepth? found.above.length with
    | none =>
      simp only [deep] at failed
      cases failed
      cases about
    | some level =>
      simp only [deep] at failed
      rcases bind_eq_error.mp failed with here | ⟨entry, _, impossible⟩
      · obtain ⟨name, named, disorder⟩ := (Entry.ofWords_order_fault about).mp here
        cases beside : found.previous?.map fun previous => previous.entry with
        | none =>
          rw [beside] at disorder
          cases disorder
        | some sibling =>
          rw [beside] at disorder
          exact ⟨sibling, name, ⟨found, level, placed, Level.ofDepth?_eq_some.mp deep, beside, named⟩, disorder⟩
      · cases impossible
  · rintro ⟨sibling, name, ⟨found, level, placed, deep, beside, named⟩, disorder⟩
    refine bind_eq_error.mpr (.inr ⟨found, placed, ?_⟩)
    simp only [Level.ofDepth?_eq_some.mpr deep]
    exact bind_eq_error.mpr (.inl ((Entry.ofWords_order_fault about).mpr ⟨name, named, beside ▸ disorder⟩))

theorem Follows.add_order_fault (follows : reading.Follows line sibling name) (about : fault.AboutOrder) :
    reading.add settings layout line.number line.width line.word line.rest = .error fault ↔
      Entry.checkOrder (some sibling) name = .error fault := by
  rw [Reading.add_order_fault about]
  constructor
  · rintro ⟨other, another, also, disorder⟩
    obtain ⟨rfl, rfl⟩ := follows.unique also
    exact disorder
  · exact fun disorder => ⟨sibling, name, follows, disorder⟩

end OrderFaults
end Reading

theorem Reading.readLine_eq_error {reading : Reading} {source : SourceLine} {located : LineFault}
    (failed : reading.readLine settings layout source = .error located) :
    ∃ line, CodeLine.ofSource? source = some line ∧ located.line = source ∧
      reading.add settings layout line.number line.width line.word line.rest = .error located.fault := by
  unfold Reading.readLine at failed
  unfold CodeLine.ofSource?
  cases code : Text.words (Text.stripComment source.text) with
  | nil =>
    simp only [code] at failed
    cases failed
  | cons word rest =>
    simp only [code] at failed
    refine ⟨⟨source.number, indentation (Text.stripComment source.text), word, rest⟩, by simp only [code], ?_⟩
    cases added : reading.add settings layout source.number (indentation (Text.stripComment source.text)) word rest with
    | ok after =>
      rw [added] at failed
      cases failed
    | error fault =>
      rw [added] at failed
      cases failed
      exact ⟨rfl, rfl⟩

theorem line_of_order_fault {text : String} {located : LineFault} (failed : read settings layout text = .error located)
    (about : located.fault.AboutOrder) :
    ∃ lines line reading, lines ++ [line] <+: codeLines text ∧ CodeLine.ofSource? located.line = some line ∧
      Reading.Run settings layout lines reading ∧
      reading.add settings layout line.number line.width line.word line.rest = .error located.fault := by
  rw [read_eq] at failed
  split at failed
  · cases failed
    cases about
  · rcases bind_eq_error.mp failed with stopped | ⟨reading, _, unsound⟩
    · obtain ⟨before, source, after, reading, split, read, refused⟩ := foldlM_eq_error stopped
      obtain ⟨line, code, same, refused⟩ := Reading.readLine_eq_error refused
      refine ⟨before.filterMap CodeLine.ofSource?, line, reading, ?_, same ▸ code, Reading.Run.start.readLines read, refused⟩
      rw [codeLines, split, List.filterMap_append, List.filterMap_cons, code]
      exact ⟨after.filterMap CodeLine.ofSource?, by simp⟩
    · rcases Reading.final_of_finish unsound with ⟨part, same⟩ | ⟨symbol, same⟩
      · rw [same] at about
        cases about
      · rw [same] at about
        cases about

/-- The names of siblings are in strict natural order, whichever two are compared. A reader compares a line with the last
sibling before it: an equal name is a duplicate, a smaller one is out of order, and nothing else is called so. -/
theorem siblings_in_natural_order (settings : Settings) (layout : Layout) (text : String) :
    (∀ catalog, read settings layout text = .ok catalog → ∀ above : Option Nat,
      (catalog.placesBelow above).Pairwise catalog.InOrder ∧
      ((catalog.placesBelow above).map fun place => catalog.entries[place]?.map Entry.name).Nodup) ∧
    (∀ located, read settings layout text = .error located → located.fault.AboutOrder →
      ∃ lines line reading sibling name, lines ++ [line] <+: codeLines text ∧ CodeLine.ofSource? located.line = some line ∧
        Reading.Run settings layout lines reading ∧ reading.Follows line sibling name ∧
        (name = sibling.name ∧ located.fault = .duplicateName name ∨
          Text.naturalCompare name sibling.name = .lt ∧ located.fault = .outOfOrder sibling.name name)) ∧
    ∀ lines line reading sibling name, Reading.Run settings layout lines reading → reading.Follows line sibling name →
      (∃ place, (reading.catalog.placesBelow sibling.parent?).getLast? = some place ∧
        reading.catalog.entries[place]? = some sibling) ∧
      (reading.add settings layout line.number line.width line.word line.rest = .error (.duplicateName name) ↔
        name = sibling.name) ∧
      (reading.add settings layout line.number line.width line.word line.rest = .error (.outOfOrder sibling.name name) ↔
        Text.naturalCompare name sibling.name = .lt) := by
  refine ⟨?_, ?_, ?_⟩
  · intro catalog accepted above
    obtain ⟨_, reached, _⟩ := read_eq_ok accepted
    have ordered := reached.siblings_ordered above
    refine ⟨ordered, List.pairwise_map.mpr (ordered.imp ?_)⟩
    rintro first second ⟨one, two, here, there, less⟩ same
    rw [here, there, Option.map_some, Option.map_some, Option.some.injEq] at same
    have equal : Text.naturalCompare one.name two.name = .eq := Std.LawfulEqCmp.compare_eq_iff_eq.mpr same
    cases less.symm.trans equal
  · intro located failed about
    obtain ⟨lines, line, reading, first, code, run, refused⟩ := line_of_order_fault failed about
    obtain ⟨sibling, name, follows, disorder⟩ := (Reading.add_order_fault about).mp refused
    exact ⟨lines, line, reading, sibling, name, first, code, run, follows, Entry.checkOrder_eq_error.mp disorder⟩
  · intro lines line reading sibling name run follows
    refine ⟨follows.last_sibling run.reached, ?_, ?_⟩
    · rw [follows.add_order_fault (by trivial), Entry.checkOrder_eq_error]
      simp
    · rw [follows.add_order_fault (by trivial), Entry.checkOrder_eq_error]
      simp

theorem siblings_in_natural_order_numbered :
    (∃ catalog, read {} ⟨8, 8, 14, by decide⟩ "LW_A2\n  _B\nLW_A10\nLW_B\n" = .ok catalog ∧ catalog.roots = [0, 2, 3] ∧
      catalog.InOrder 0 3) ∧
    read {} ⟨8, 8, 14, by decide⟩ "LW_A10\n  _B\nLW_A2\n" = .error ⟨⟨3, "LW_A2"⟩, .outOfOrder "LW_A10" "LW_A2"⟩ ∧
    Text.naturalCompare "LW_A2" "LW_A10" = .lt ∧
    ∃ lines line reading sibling, Reading.Run {} ⟨8, 8, 14, by decide⟩ lines reading ∧
      reading.Follows line sibling "LW_A2" ∧ sibling.name = "LW_A10" ∧
      (reading.catalog.placesBelow sibling.parent?).getLast?.bind (reading.catalog.entries[·]?) = some sibling := by
  have roots : ((read {} ⟨8, 8, 14, by decide⟩ "LW_A2\n  _B\nLW_A10\nLW_B\n").toOption.map roots) = some [0, 2, 3] := by
    decide +kernel
  obtain ⟨catalog, accepted, roots⟩ := Option.map_eq_some_iff.mp roots
  rw [toOption_eq_some] at accepted
  obtain ⟨ordered, _⟩ := (siblings_in_natural_order _ _ _).1 catalog accepted none
  rw [show catalog.placesBelow none = [0, 2, 3] from roots] at ordered
  have failed : read {} ⟨8, 8, 14, by decide⟩ "LW_A10\n  _B\nLW_A2\n" =
      .error ⟨⟨3, "LW_A2"⟩, .outOfOrder "LW_A10" "LW_A2"⟩ := rfl
  obtain ⟨lines, line, reading, sibling, name, _, _, run, follows, ⟨_, impossible⟩ | ⟨less, same⟩⟩ :=
    (siblings_in_natural_order _ _ _).2.1 _ failed (by trivial)
  · cases impossible
  · obtain ⟨previous, rfl⟩ := Fault.outOfOrder.inj same
    obtain ⟨⟨place, last, stored⟩, _⟩ := (siblings_in_natural_order _ _ "").2.2 _ _ _ _ _ run follows
    refine ⟨⟨catalog, accepted, roots, List.rel_of_pairwise_cons ordered (by simp)⟩, failed, previous ▸ less,
      lines, line, reading, sibling, run, follows, previous.symm, ?_⟩
    rw [last]
    exact stored

end Catalog
end RegisterCatalog
