import RegisterCatalog.Catalog.Reader
import RegisterCatalog.Proofs.EntryIdentity

/-! The entries that a reader keeps open. They lead from the last entry up to its address, and each of
them is the last one among its siblings, so a new line finds its parent and its number there. -/

namespace RegisterCatalog.Outline

theorem place_eq_ok {widthOf : α → Nat} {opened : List α} {width : Nat} {found : Place α}
    (done : place widthOf opened width = .ok found) :
    (found.previous? = none ∧ found.above = opened ∧ ∀ innermost ∈ opened.head?, widthOf innermost < width) ∨
    ∃ previous, found.previous? = some previous ∧ previous :: found.above <:+ opened ∧ widthOf previous = width := by
  unfold place at done
  split at done
  · cases done
    exact .inl ⟨rfl, rfl, by simp⟩
  next innermost outer =>
    split at done
    next deeper =>
      cases done
      exact .inl ⟨rfl, rfl, by simpa using deeper⟩
    next =>
      split at done
      · cases done
      next previous above rest =>
        split at done <;> cases done
        refine .inr ⟨previous, rfl, ?_, by assumption⟩
        exact rest ▸ List.dropWhile_suffix _

theorem above_suffix {widthOf : α → Nat} {opened : List α} {width : Nat} {found : Place α}
    (done : place widthOf opened width = .ok found) : found.above <:+ opened := by
  rcases place_eq_ok done with ⟨_, all, _⟩ | ⟨previous, _, within, _⟩
  · exact all ▸ List.suffix_rfl
  · exact (List.suffix_cons previous found.above).trans within

end RegisterCatalog.Outline

namespace RegisterCatalog.Catalog.Reading
open Outcome

variable {settings : Settings} {layout : Layout}

theorem add_eq_ok {before after : Reading} {line width : Nat} {word : String} {rest : List String}
    (done : before.add settings layout line width word rest = .ok after) :
    ∃ place level entry, Outline.place Opened.width before.opened width = .ok place ∧
      level.depth = place.above.length ∧
      Entry.ofWords settings layout line level (place.above.head?.map Opened.toAbove)
        (place.previous?.map fun previous => previous.entry) word rest = .ok entry ∧
      after = ⟨before.catalog.push entry, ⟨⟨before.catalog.size, entry⟩, width⟩ :: place.above⟩ := by
  obtain ⟨place, placed, done⟩ := bind_eq_ok.mp done
  cases deep : Level.ofDepth? place.above.length with
  | none => simp [deep] at done
  | some level =>
    simp only [deep] at done
    obtain ⟨entry, declared, done⟩ := bind_eq_ok.mp done
    cases done
    exact ⟨place, level, entry, placed, Level.ofDepth?_eq_some.mp deep, declared, rfl⟩

/-- The states that a reader can be in between two lines. -/
inductive Reached (settings : Settings) (layout : Layout) : Reading → Prop
  | start : Reached settings layout {}
  | add {before after : Reading} {line width : Nat} {word : String} {rest : List String} :
    Reached settings layout before → before.add settings layout line width word rest = .ok after →
      Reached settings layout after

theorem Reached.readLine {before after : Reading} {line : SourceLine} (reached : Reached settings layout before)
    (done : before.readLine settings layout line = .ok after) : Reached settings layout after := by
  unfold Reading.readLine at done
  dsimp only at done
  split at done
  · cases done
    exact reached
  · exact .add reached (mapError_eq_ok done)

/-- How the open entries hang together and what they tell about the catalog. -/
structure Linked (reading : Reading) : Prop where
  stored : ∀ opened ∈ reading.opened, reading.catalog.entries[opened.place]? = some opened.entry
  parent : ∀ opened above, opened :: above <:+ reading.opened →
    opened.entry.parent? = above.head?.map fun parent => parent.place
  depth : ∀ opened above, opened :: above <:+ reading.opened → opened.entry.level.depth = above.length
  /-- An open entry is the last of its siblings. -/
  last : ∀ opened ∈ reading.opened,
    (reading.catalog.placesBelow opened.entry.parent?).length = opened.entry.number
  /-- Nothing stands below the innermost open entry; without one there is no address yet. -/
  childless : reading.catalog.placesBelow (reading.opened.head?.map fun innermost => innermost.place) = []
  earlier : ∀ (place : Nat) (entry : Entry) (above : Nat), reading.catalog.entries[place]? = some entry →
    entry.parent? = some above → above < place

theorem linked_start : Linked {} := by
  constructor <;> simp [placesBelow]

private theorem Linked.same_length {reading : Reading} (linked : reading.Linked) {first second : Opened}
    {above outer : List Opened} (one : first :: above <:+ reading.opened)
    (two : second :: outer <:+ reading.opened)
    (same : first.place = second.place) : above.length = outer.length := by
  have stored := linked.stored first (one.subset List.mem_cons_self)
  rw [same, linked.stored second (two.subset List.mem_cons_self)] at stored
  rw [← linked.depth _ _ one, ← linked.depth _ _ two, Option.some.inj stored]

/-- A new entry below `above` is no sibling of the entries above it. -/
theorem Linked.parent_ne {reading : Reading} (linked : reading.Linked) {above : List Opened}
    (inside : above <:+ reading.opened) {opened : Opened} (member : opened ∈ above) :
    (above.head?.map fun parent => parent.place) ≠ opened.entry.parent? := by
  obtain ⟨inner, outer, split⟩ := List.append_of_mem member
  have within : opened :: outer <:+ above := ⟨inner, split.symm⟩
  rw [linked.parent opened outer (within.trans inside)]
  intro same
  cases above with
  | nil => cases member
  | cons direct outermost =>
    cases outer with
    | nil => cases same
    | cons next others =>
      have chain : next :: others <:+ direct :: outermost := (List.suffix_cons opened _).trans within
      have size := linked.same_length inside (chain.trans inside) (by simpa using same)
      have shorter := within.length_le
      simp only [List.length_cons] at shorter
      omega

theorem Linked.count_siblings {reading : Reading} (linked : reading.Linked) {width : Nat}
    {place : Outline.Place Opened} (placed : Outline.place Opened.width reading.opened width = .ok place) :
    (reading.catalog.placesBelow (place.above.head?.map fun parent => parent.place)).length =
      (place.previous?.map fun previous => previous.entry).elim 0 Entry.number := by
  rcases Outline.place_eq_ok placed with ⟨none, all, _⟩ | ⟨previous, some, within, _⟩
  · rw [none, all, linked.childless]
    rfl
  · rw [some, ← linked.parent _ _ within]
    exact linked.last previous (within.subset List.mem_cons_self)

theorem Linked.add {before after : Reading} {line width : Nat} {word : String} {rest : List String}
    (linked : before.Linked) (done : before.add settings layout line width word rest = .ok after) :
    after.Linked := by
  obtain ⟨place, level, entry, placed, deep, declared, rfl⟩ := add_eq_ok done
  have stands := Entry.ofWords_stands declared
  have inside := Outline.above_suffix placed
  have parent : entry.parent? = place.above.head?.map fun parent => parent.place := by
    rw [stands.parent, Option.map_map]
    rfl
  have below : ∀ above, entry.parent? = some above → above < before.catalog.size := by
    intro above found
    rw [parent, Option.map_eq_some_iff] at found
    obtain ⟨direct, first, rfl⟩ := found
    exact lt_size (linked.stored direct (inside.subset (List.mem_of_mem_head? first)))
  constructor
  case stored =>
    intro opened member
    rw [getElem?_push]
    rcases List.mem_cons.mp member with rfl | member
    · simp
    · have stored := linked.stored opened (inside.subset member)
      rw [if_neg (Nat.ne_of_lt (lt_size stored))]
      exact stored
  case parent =>
    intro opened above within
    rcases List.suffix_cons_iff.mp within with same | within
    · cases same
      exact parent
    · exact linked.parent opened above (within.trans inside)
  case depth =>
    intro opened above within
    rcases List.suffix_cons_iff.mp within with same | within
    · cases same
      rw [stands.level, deep]
    · exact linked.depth opened above (within.trans inside)
  case last =>
    intro opened member
    rw [placesBelow_push]
    rcases List.mem_cons.mp member with rfl | member
    · rw [if_pos rfl, List.length_append, parent, linked.count_siblings placed, Entry.number, stands.level,
        stands.position, Position.on_below]
      rfl
    · have other : entry.parent? ≠ opened.entry.parent? := parent ▸ linked.parent_ne inside member
      rw [if_neg other, List.append_nil]
      exact linked.last opened (inside.subset member)
  case childless =>
    rw [List.head?_cons, Option.map_some, placesBelow_push, if_neg, List.append_nil]
    · rw [List.eq_nil_iff_forall_not_mem]
      intro child member
      obtain ⟨found, stored, same⟩ := mem_placesBelow.mp member
      exact Nat.lt_asymm (linked.earlier child found _ stored same) (lt_size stored)
    · intro same
      exact Nat.lt_irrefl _ (below _ same)
  case earlier =>
    intro found stored above here same
    rw [getElem?_push] at here
    split at here
    next new =>
      cases here
      exact new ▸ below above same
    next => exact linked.earlier found stored above here same

theorem Reached.linked {reading : Reading} (reached : Reached settings layout reading) : reading.Linked := by
  induction reached with
  | start => exact linked_start
  | add _ done ih => exact ih.add done

end RegisterCatalog.Catalog.Reading

namespace RegisterCatalog.Catalog
open Outcome

/-- An accepted catalog is what a reader has collected, and no fault is found in it at the end. -/
theorem read_eq_ok {settings : Settings} {layout : Layout} {text : String} {catalog : Catalog}
    (accepted : read settings layout text = .ok catalog) :
    ∃ opened, Reading.Reached settings layout ⟨catalog, opened⟩ ∧ faultAmong? ∅ catalog.toList = none := by
  unfold read at accepted
  dsimp only at accepted
  split at accepted
  · cases accepted
  · obtain ⟨reading, collected, accepted⟩ := bind_eq_ok.mp accepted
    have reached : Reading.Reached settings layout reading :=
      foldlM_invariant _ (fun _ _ _ earlier done => earlier.readLine done) .start collected
    split at accepted
    next sound =>
      cases accepted
      exact ⟨reading.opened, reached, sound⟩
    next => cases accepted

end RegisterCatalog.Catalog
