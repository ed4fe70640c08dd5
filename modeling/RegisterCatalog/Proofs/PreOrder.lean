import Mathlib.Data.List.Basic
import Mathlib.Data.Nat.Find
import RegisterCatalog.Proofs.EntryParents
import RegisterCatalog.Proofs.StoredForest

/-! Catalogs are in pre-order: an entry is followed by everything that stands below it, before anything else
comes. A reader can only hang a new entry on the last one or on an entry above that, so the order of the
lines is a walk through the tree. -/

namespace RegisterCatalog

theorem CodeLine.number_of_source {source : SourceLine} {line : CodeLine}
    (found : CodeLine.ofSource? source = some line) : line.number = source.number := by
  unfold CodeLine.ofSource? at found
  dsimp only at found
  split at found <;> cases found
  rfl

namespace Catalog

theorem parent?_eq_some {catalog : Catalog} {place above : Nat} :
    catalog.parent? place = some above ↔ ∃ entry, catalog.entries[place]? = some entry ∧ entry.parent? = some above :=
  Option.bind_eq_some_iff

theorem parent?_of_stored {catalog : Catalog} {place : Nat} {entry : Entry}
    (stored : catalog.entries[place]? = some entry) : catalog.parent? place = entry.parent? := by
  rw [parent?, stored]
  rfl

theorem stored_push {catalog : Catalog} {place : Nat} {entry : Entry}
    (stored : catalog.entries[place]? = some entry) (new : Entry) : (catalog.push new).entries[place]? = some entry := by
  rw [getElem?_push, if_neg (Nat.ne_of_lt (lt_size stored))]
  exact stored

/-- The entry at `top` is the one at the place, or stands above it. -/
inductive Over (catalog : Catalog) (top : Nat) : Nat → Prop
  | self : Over catalog top top
  | child {above place : Nat} (upper : Over catalog top above) (parent : catalog.parent? place = some above) :
    Over catalog top place

namespace Over

variable {catalog : Catalog} {top place : Nat}

theorem trans {middle : Nat} (first : catalog.Over top middle) (second : catalog.Over middle place) :
    catalog.Over top place := by
  induction second with
  | self => exact first
  | child _ parent ih => exact .child ih parent

theorem push (leads : catalog.Over top place) (entry : Entry) : (catalog.push entry).Over top place := by
  induction leads with
  | self => exact .self
  | child _ parent ih =>
    apply Over.child ih
    obtain ⟨old, stored, same⟩ := parent?_eq_some.mp parent
    exact parent?_eq_some.mpr ⟨old, stored_push stored entry, same⟩

end Over

/-- How a stored entry hangs on the entries before it. -/
structure Hangs (catalog : Catalog) (place : Nat) (entry : Entry) : Prop where
  top : entry.parent? = none ↔ entry.level = .address
  deeper : ∀ above, entry.parent? = some above →
    ∃ parent, catalog.entries[above]? = some parent ∧ entry.level.depth = parent.level.depth + 1
  previous : ∀ above, entry.parent? = some above → ∃ last, place = last + 1 ∧ catalog.Over above last

theorem Hangs.push {catalog : Catalog} {place : Nat} {entry : Entry} (hangs : catalog.Hangs place entry)
    (new : Entry) : (catalog.push new).Hangs place entry := by
  refine ⟨hangs.top, ?_, ?_⟩
  · intro above below
    obtain ⟨parent, stored, deep⟩ := hangs.deeper above below
    exact ⟨parent, stored_push stored new, deep⟩
  · intro above below
    obtain ⟨last, next, leads⟩ := hangs.previous above below
    exact ⟨last, next, leads.push new⟩

namespace Reading

variable {settings : Settings} {layout : Layout}

theorem Linked.leads_up {reading : Reading} (linked : reading.Linked) {innermost : Opened} {above : List Opened}
    (within : innermost :: above <:+ reading.opened) :
    ∀ opened ∈ innermost :: above, reading.catalog.Over opened.place innermost.place := by
  induction above generalizing innermost with
  | nil =>
    intro opened member
    cases List.mem_singleton.mp member
    exact .self
  | cons next outer ih =>
    intro opened member
    rcases List.mem_cons.mp member with rfl | member
    · exact .self
    · have upper := ih ((List.suffix_cons innermost _).trans within) opened member
      refine .child upper (parent?_eq_some.mpr ⟨innermost.entry, ?_, ?_⟩)
      · exact linked.stored innermost (within.subset List.mem_cons_self)
      · exact linked.parent innermost (next :: outer) within

theorem Reached.innermost_last {reading : Reading} (reached : Reached settings layout reading) :
    ∀ innermost ∈ reading.opened.head?, reading.catalog.size = innermost.place + 1 := by
  cases reached with
  | start => simp
  | add _ done =>
    obtain ⟨_, _, entry, _, _, _, rfl⟩ := add_eq_ok done
    simp

theorem Reached.hangs_new {before : Reading} {found : Outline.Place Opened} {level : Level} {entry : Entry} {width : Nat}
    (reached : Reached settings layout before)
    (placed : Outline.place Opened.width before.opened width = .ok found) (deep : level.depth = found.above.length)
    (stands : Entry.Stands settings layout level (found.above.head?.map Opened.toAbove)
      (found.previous?.map fun previous => previous.entry) entry) :
    before.catalog.Hangs before.catalog.size entry := by
  have linked := reached.linked
  have inside := Outline.above_suffix placed
  have parent := stands.parent
  cases outer : found.above with
  | nil =>
    rw [outer] at deep parent
    have top : entry.parent? = none := parent
    have address : entry.level = .address := by
      rw [stands.level]
      cases level <;> cases deep
      rfl
    exact ⟨by simp [top, address], by simp [top], by simp [top]⟩
  | cons direct others =>
    rw [outer] at deep parent inside
    have below : entry.parent? = some direct.place := parent
    have lower : entry.level ≠ .address := by
      rw [stands.level]
      rintro rfl
      cases deep
    refine ⟨by simp [below, lower], ?_, ?_⟩
    · intro above same
      cases below.symm.trans same
      refine ⟨direct.entry, linked.stored direct (inside.subset List.mem_cons_self), ?_⟩
      rw [stands.level, deep, linked.depth direct others inside, List.length_cons]
    · intro above same
      cases below.symm.trans same
      have member : direct ∈ before.opened := inside.subset List.mem_cons_self
      obtain ⟨innermost, rest, opened⟩ := List.exists_cons_of_ne_nil (List.ne_nil_of_mem member)
      refine ⟨innermost.place, reached.innermost_last innermost (by simp [opened]), ?_⟩
      rw [opened] at member
      exact linked.leads_up (opened ▸ List.suffix_rfl) direct member

theorem Reached.hangs {reading : Reading} (reached : Reached settings layout reading) :
    ∀ (place : Nat) (entry : Entry), reading.catalog.entries[place]? = some entry →
      reading.catalog.Hangs place entry := by
  induction reached with
  | start => simp
  | @add before after line width word rest earlier done ih =>
    obtain ⟨found, level, entry, placed, deep, declared, rfl⟩ := add_eq_ok done
    intro place stored here
    rw [getElem?_push] at here
    split at here
    next new =>
      cases here
      subst new
      exact (earlier.hangs_new placed deep (Entry.ofWords_stands declared)).push entry
    next => exact (ih place stored here).push entry

end Reading

theorem placesBelow_increasing (catalog : Catalog) (above : Option Nat) :
    (catalog.placesBelow above).Pairwise (· < ·) := by
  have part : (catalog.placesBelow above).Sublist (catalog.entries.toList.zipIdx.map Prod.snd) :=
    List.filter_sublist.map Prod.snd
  rw [List.zipIdx_map_snd] at part
  exact List.Pairwise.sublist part List.pairwise_lt_range'

theorem count_children (catalog : Catalog) (above place : Nat) :
    (catalog.children above).count place = if catalog.parent? place = some above then 1 else 0 := by
  have single : (catalog.children above).Nodup :=
    (placesBelow_increasing catalog (some above)).imp fun less => Nat.ne_of_lt less
  rw [single.count]
  simp only [children, mem_placesBelow, parent?_eq_some]

/-- The order in which a tree is walked: upper entries come first, and what comes next stands below the last entry
or below one of the entries above it. -/
structure Preorder (catalog : Catalog) : Prop where
  earlier : ∀ place above, catalog.parent? place = some above → above < place
  previous : ∀ last above, catalog.parent? (last + 1) = some above → catalog.Over above last

namespace Preorder

variable {catalog : Catalog}

theorem le_of_over (preorder : catalog.Preorder) {top place : Nat} (leads : catalog.Over top place) : top ≤ place := by
  induction leads with
  | self => exact Nat.le_refl top
  | child _ parent ih => exact Nat.le_trans ih (Nat.le_of_lt (preorder.earlier _ _ parent))

theorem over_between (preorder : catalog.Preorder) {top middle last : Nat} (leads : catalog.Over top last)
    (after : top ≤ middle) (before : middle ≤ last) : catalog.Over top middle := by
  induction last with
  | zero =>
    have same : middle = 0 := by omega
    exact same ▸ leads
  | succ last ih =>
    by_cases same : middle = last + 1
    · exact same ▸ leads
    · cases leads with
      | self => omega
      | child upper parent => exact ih (upper.trans (preorder.previous last _ parent)) (by omega)

theorem lt_size_of_over {top place : Nat} (inside : top < catalog.size) (leads : catalog.Over top place) :
    place < catalog.size := by
  cases leads with
  | self => exact inside
  | child _ parent =>
    obtain ⟨entry, stored, _⟩ := parent?_eq_some.mp parent
    exact lt_size stored

/-- What stands below an entry takes up the places after it, up to the first place that does not. -/
theorem subtree (preorder : catalog.Preorder) {top : Nat} (inside : top < catalog.size) :
    ∃ stop ≤ catalog.size, ∀ place, catalog.Over top place ↔ top ≤ place ∧ place < stop := by
  classical
  have size : top ≤ catalog.size ∧ ¬ catalog.Over top catalog.size :=
    ⟨Nat.le_of_lt inside, fun leads => Nat.lt_irrefl _ (lt_size_of_over inside leads)⟩
  have outside : ∃ place, top ≤ place ∧ ¬ catalog.Over top place := ⟨catalog.size, size⟩
  obtain ⟨beyond, left⟩ := Nat.find_spec outside
  refine ⟨Nat.find outside, Nat.find_min' outside size, ?_⟩
  intro place
  constructor
  · intro leads
    refine ⟨preorder.le_of_over leads, ?_⟩
    by_contra later
    exact left (preorder.over_between leads beyond (by omega))
  · rintro ⟨after, before⟩
    have kept := Nat.find_min outside before
    by_contra missing
    exact kept ⟨after, missing⟩

theorem addressPlace_of_some (preorder : catalog.Preorder) {place above : Nat}
    (parent : catalog.parent? place = some above) : catalog.addressPlace place = catalog.addressPlace above := by
  rw [addressPlace, parent]
  exact if_pos (preorder.earlier place above parent)

theorem over_addressPlace (preorder : catalog.Preorder) (place : Nat) :
    catalog.Over (catalog.addressPlace place) place ∧ catalog.parent? (catalog.addressPlace place) = none := by
  induction place using Nat.strongRecOn with
  | ind place ih =>
    cases parent : catalog.parent? place with
    | none =>
      rw [addressPlace, parent]
      exact ⟨.self, parent⟩
    | some above =>
      rw [preorder.addressPlace_of_some parent]
      obtain ⟨leads, top⟩ := ih above (preorder.earlier place above parent)
      exact ⟨.child leads parent, top⟩

end Preorder

variable {settings : Settings} {layout : Layout} {text : String} {catalog : Catalog}

theorem hangs_of_read (accepted : read settings layout text = .ok catalog) {place : Nat} {entry : Entry}
    (stored : catalog.entries[place]? = some entry) : catalog.Hangs place entry := by
  obtain ⟨_, reached, _⟩ := read_eq_ok accepted
  exact reached.hangs place entry stored

theorem preorder_of_read (accepted : read settings layout text = .ok catalog) : catalog.Preorder := by
  constructor
  · intro place above parent
    obtain ⟨_, reached, _⟩ := read_eq_ok accepted
    obtain ⟨entry, stored, below⟩ := parent?_eq_some.mp parent
    exact reached.linked.earlier place entry above stored below
  · intro last above parent
    obtain ⟨entry, stored, below⟩ := parent?_eq_some.mp parent
    obtain ⟨previous, next, leads⟩ := (hangs_of_read accepted stored).previous above below
    cases next
    exact leads

theorem addressOf_of_read (accepted : read settings layout text = .ok catalog) {place : Nat} {entry : Entry}
    (stored : catalog.entries[place]? = some entry) :
    catalog.entries[catalog.addressPlace place]? = some (catalog.addressOf place entry) ∧
      (catalog.addressOf place entry).level = .address := by
  obtain ⟨leads, top⟩ := (preorder_of_read accepted).over_addressPlace place
  have inside : catalog.addressPlace place < catalog.size :=
    Nat.lt_of_le_of_lt ((preorder_of_read accepted).le_of_over leads) (lt_size stored)
  obtain ⟨address, found⟩ : ∃ address, catalog.entries[catalog.addressPlace place]? = some address :=
    ⟨_, Array.getElem?_eq_getElem inside⟩
  have same : catalog.addressOf place entry = address := by
    rw [addressOf, found]
    rfl
  rw [same]
  refine ⟨found, (hangs_of_read accepted found).top.mp ?_⟩
  rw [← parent?_of_stored found]
  exact top

theorem lines_increasing (accepted : read settings layout text = .ok catalog) :
    (catalog.toList.map Entry.line).Pairwise (· < ·) := by
  have numbered : (sourceLines text).Pairwise fun one two => one.number < two.number := by
    apply List.pairwise_map.mpr
    apply List.pairwise_map.mp
    rw [List.zipIdx_map_snd]
    exact List.pairwise_lt_range'
  rw [lines_of_read accepted, List.pairwise_map]
  apply List.Pairwise.filterMap CodeLine.ofSource? _ numbered
  intro one two less first here second there
  rw [CodeLine.number_of_source here, CodeLine.number_of_source there]
  exact less

/-- The tree of an accepted text is stored in pre-order. At the top stand the addresses, and they alone; any other
entry is one level below its parent, which comes before it and has it noted as a child once. The entry before a
lower entry is its parent or stands below its parent, so whatever is below an entry follows it in
one run. -/
theorem entries_in_preorder (accepted : read settings layout text = .ok catalog) :
    catalog.forest.Stores catalog ∧
    (∀ place, (place ∈ catalog.forest.roots ↔ ∃ entry, catalog.entries[place]? = some entry ∧ entry.parent? = none) ∧
      (place ∈ catalog.forest.roots ↔ ∃ entry, catalog.entries[place]? = some entry ∧ entry.level = .address)) ∧
    (∀ (place : Nat) (entry : Entry) (above : Nat), catalog.entries[place]? = some entry →
      entry.parent? = some above → above < place ∧
        ∃ parent, catalog.entries[above]? = some parent ∧ entry.level.depth = parent.level.depth + 1) ∧
    (∀ above place, (catalog.forest.children above).count place =
      if catalog.parent? place = some above then 1 else 0) ∧
    catalog.forest.roots.Pairwise (· < ·) ∧ (∀ above, (catalog.forest.children above).Pairwise (· < ·)) ∧
    (∀ last above, catalog.parent? (last + 1) = some above → catalog.Over above last) ∧
    (∀ top < catalog.size, ∃ stop ≤ catalog.size, ∀ place, catalog.Over top place ↔ top ≤ place ∧ place < stop) ∧
    (catalog.toList.map Entry.line).Pairwise (· < ·) ∧
    ∀ (place : Nat) (entry : Entry), catalog.entries[place]? = some entry →
      ∃ top, catalog.Over top place ∧ catalog.entries[top]? = some (catalog.addressOf place entry) ∧
        (catalog.addressOf place entry).level = .address := by
  have preorder := preorder_of_read accepted
  have stores := stores_of_read accepted
  simp only [stores.roots, stores.children]
  refine ⟨stores, ?_, ?_, count_children catalog, placesBelow_increasing catalog none,
    fun above => placesBelow_increasing catalog (some above), preorder.previous,
    fun top inside => preorder.subtree inside, lines_increasing accepted, ?_⟩
  · intro place
    refine ⟨mem_placesBelow, mem_placesBelow.trans ?_⟩
    apply exists_congr
    intro entry
    exact and_congr_right fun stored => (hangs_of_read accepted stored).top
  · intro place entry above stored below
    refine ⟨preorder.earlier place above (parent?_eq_some.mpr ⟨entry, stored, below⟩), ?_⟩
    exact (hangs_of_read accepted stored).deeper above below
  · intro place entry stored
    obtain ⟨found, level⟩ := addressOf_of_read accepted stored
    exact ⟨_, (preorder.over_addressPlace place).1, found, level⟩

theorem entries_in_preorder_two_addresses :
    ∃ layout catalog, ({} : Settings).layout = .ok layout ∧
      read {} layout "LW_A\n  _F\n    _V\n\n  _G\nLW_B # last\n  _H\n" = .ok catalog ∧
      catalog.toList.map Entry.parent? = [none, some 0, some 1, some 0, none, some 4] ∧
      catalog.toList.map Entry.line = [1, 2, 3, 5, 6, 7] ∧ catalog.forest.roots = [0, 4] ∧
      catalog.forest.children 0 = [1, 3] ∧ catalog.Over 0 2 ∧
      ∀ top < 6, ∃ stop ≤ 6, ∀ place, catalog.Over top place ↔ top ≤ place ∧ place < stop := by
  have tree : ((read {} ⟨8, 8, 14, by decide⟩ "LW_A\n  _F\n    _V\n\n  _G\nLW_B # last\n  _H\n").toOption.map
      fun catalog => ((catalog.toList.map Entry.parent?, catalog.toList.map Entry.line),
        (catalog.forest.roots, catalog.forest.children 0), catalog.size, catalog.parent? 3)) =
      some (([none, some 0, some 1, some 0, none, some 4], [1, 2, 3, 5, 6, 7]), ([0, 4], [1, 3]), 6, some 0) := by
    decide +kernel
  obtain ⟨catalog, accepted, tree⟩ := Option.map_eq_some_iff.mp tree
  rw [Outcome.toOption_eq_some] at accepted
  simp only [Prod.mk.injEq] at tree
  obtain ⟨⟨parents, lines⟩, ⟨roots, children⟩, size, third⟩ := tree
  obtain ⟨_, _, _, _, _, _, previous, runs, _⟩ := entries_in_preorder accepted
  rw [size] at runs
  exact ⟨_, catalog, rfl, accepted, parents, lines, roots, children, previous 2 0 third, runs⟩

end Catalog
end RegisterCatalog
