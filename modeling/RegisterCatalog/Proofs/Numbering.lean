import RegisterCatalog.Proofs.OpenEntries
import RegisterCatalog.Proofs.PackedIds

/-! The id of an entry tells where the entry stands. Its parts are the numbers that one counts off on
the way from the addresses down to it, so no two entries of a catalog share an id. -/

namespace RegisterCatalog

theorem Position.on_below_le {above : Position} {limits : Limits} {level : Level} {number : Nat}
    (within : ∀ level, above.on level ≤ limits.on level) (bounded : number ≤ limits.on level) (other : Level) :
    (above.below level number).on other ≤ limits.on other := by
  have addresses := within .address
  have fields := within .field
  cases level <;> cases other <;> first | exact bounded | exact addresses | exact fields | exact Nat.zero_le _

theorem Settings.layout_holds {settings : Settings} {layout : Layout} (sized : settings.layout = .ok layout)
    {position : Position} (within : ∀ level, position.on level ≤ settings.limits.on level) :
    layout.Holds position := by
  unfold Settings.layout Layout.ofLimits at sized
  dsimp only at sized
  split at sized <;> cases sized
  exact ⟨lt_two_pow_bitWidth (within .address), lt_two_pow_bitWidth (within .field),
    lt_two_pow_bitWidth (within .value)⟩

namespace Catalog

/-- The way down to a place, told by the number of each entry on it among its siblings. Numbers start
at one, and zero stands for a level that the way does not reach. -/
inductive PathTo (catalog : Catalog) : Nat → Level → Position → Prop
  | address {place index : Nat} (here : catalog.roots[index]? = some place) :
    PathTo catalog place .address { address := index + 1 }
  | field {above place index address : Nat} (upper : PathTo catalog above .address { address })
    (here : (catalog.children above)[index]? = some place) :
    PathTo catalog place .field { address, field := index + 1 }
  | value {above place index address field : Nat} (upper : PathTo catalog above .field { address, field })
    (here : (catalog.children above)[index]? = some place) :
    PathTo catalog place .value { address, field, value := index + 1 }

theorem getElem?_placesBelow_push {catalog : Catalog} (entry : Entry) {above : Option Nat} {index place : Nat}
    (here : (catalog.placesBelow above)[index]? = some place) :
    ((catalog.push entry).placesBelow above)[index]? = some place := by
  rw [placesBelow_push, List.getElem?_append_left (List.getElem?_eq_some_iff.mp here).1]
  exact here

theorem getElem?_placesBelow_last {catalog : Catalog} {entry : Entry} {above : Option Nat}
    (same : entry.parent? = above) :
    ((catalog.push entry).placesBelow above)[(catalog.placesBelow above).length]? = some catalog.size := by
  rw [placesBelow_push, if_pos same, List.getElem?_concat_length]

namespace PathTo

variable {catalog : Catalog}

theorem push {place : Nat} {level : Level} {position : Position} (path : catalog.PathTo place level position)
    (entry : Entry) : (catalog.push entry).PathTo place level position := by
  induction path with
  | address here => exact .address (getElem?_placesBelow_push entry here)
  | field _ here ih => exact .field ih (getElem?_placesBelow_push entry here)
  | value _ here ih => exact .value ih (getElem?_placesBelow_push entry here)

theorem child {above place index : Nat} {upper level : Level} {position : Position}
    (path : catalog.PathTo above upper position) (here : (catalog.children above)[index]? = some place)
    (deep : level.depth = upper.depth + 1) : catalog.PathTo place level (position.below level (index + 1)) := by
  cases path with
  | address top =>
    cases level <;> cases deep
    exact .field (.address top) here
  | field top middle =>
    cases level <;> cases deep
    exact .value (.field top middle) here
  | value _ _ => cases level <;> cases deep

theorem place_unique {first second : Nat} {level : Level} {position : Position}
    (one : catalog.PathTo first level position) (two : catalog.PathTo second level position) : first = second := by
  induction one generalizing second with
  | address here =>
    cases two with
    | address there => exact Option.some.inj (here.symm.trans there)
  | field _ here ih =>
    cases two with
    | field upper there =>
      cases ih upper
      exact Option.some.inj (here.symm.trans there)
  | value _ here ih =>
    cases two with
    | value upper there =>
      cases ih upper
      exact Option.some.inj (here.symm.trans there)

end PathTo

/-- The identity of a stored entry: its position is the way to it, its id is that position packed. -/
structure Identified (settings : Settings) (layout : Layout) (catalog : Catalog) (place : Nat)
    (entry : Entry) : Prop where
  path : catalog.PathTo place entry.level entry.position
  packed : entry.id = layout.pack entry.level entry.position
  within : ∀ level, entry.position.on level ≤ settings.limits.on level

namespace Reading

variable {settings : Settings} {layout : Layout}

private theorem new_path {before : Reading} {place : Outline.Place Opened} {level : Level} {entry : Entry}
    {width : Nat} (linked : before.Linked)
    (paths : ∀ (place : Nat) (entry : Entry), before.catalog.entries[place]? = some entry →
      before.catalog.PathTo place entry.level entry.position)
    (placed : Outline.place Opened.width before.opened width = .ok place)
    (deep : level.depth = place.above.length)
    (stands : Entry.Stands settings layout level (place.above.head?.map Opened.toAbove)
      (place.previous?.map fun previous => previous.entry) entry) :
    (before.catalog.push entry).PathTo before.catalog.size level entry.position := by
  have parent := stands.parent
  have inside := Outline.above_suffix placed
  rw [stands.position, ← linked.count_siblings placed]
  cases outer : place.above with
  | nil =>
    rw [outer] at deep parent
    cases level <;> cases deep
    exact .address (getElem?_placesBelow_last parent)
  | cons direct others =>
    rw [outer] at deep parent inside
    have upper := paths direct.place direct.entry (linked.stored direct (inside.subset List.mem_cons_self))
    refine (upper.push entry).child (getElem?_placesBelow_last parent) ?_
    rw [deep, linked.depth direct others inside, List.length_cons]

private theorem new_within {place : Outline.Place Opened} {level : Level} {entry : Entry}
    (bounded : ∀ above ∈ place.above, ∀ level, above.entry.position.on level ≤ settings.limits.on level)
    (stands : Entry.Stands settings layout level (place.above.head?.map Opened.toAbove)
      (place.previous?.map fun previous => previous.entry) entry) (other : Level) :
    entry.position.on other ≤ settings.limits.on other := by
  rw [stands.position]
  apply Position.on_below_le _ stands.bounded other
  intro level
  cases outer : place.above with
  | nil => cases level <;> exact Nat.zero_le _
  | cons direct others => exact bounded direct (outer ▸ List.mem_cons_self) level

theorem Reached.identified {reading : Reading} (reached : Reached settings layout reading) :
    ∀ (place : Nat) (entry : Entry), reading.catalog.entries[place]? = some entry →
      Identified settings layout reading.catalog place entry := by
  induction reached with
  | start => simp
  | @add before after line width word rest earlier done ih =>
    have linked := earlier.linked
    obtain ⟨found, level, entry, placed, deep, declared, rfl⟩ := add_eq_ok done
    have stands := Entry.ofWords_stands declared
    intro place stored here
    rw [getElem?_push] at here
    split at here
    next new =>
      cases here
      subst new
      refine ⟨?_, stands.level ▸ stands.id, ?_⟩
      · exact stands.level ▸ new_path linked (fun place entry here => (ih place entry here).path) placed deep stands
      · apply new_within _ stands
        intro above member
        exact (ih _ _ (linked.stored above ((Outline.above_suffix placed).subset member))).within
    next =>
      have old := ih place stored here
      exact ⟨old.path.push entry, old.packed, old.within⟩

end Reading

variable {settings : Settings} {layout : Layout} {text : String} {catalog : Catalog}

theorem identified_of_read (accepted : read settings layout text = .ok catalog) {place : Nat} {entry : Entry}
    (stored : catalog.entries[place]? = some entry) : Identified settings layout catalog place entry := by
  obtain ⟨_, reached, _⟩ := read_eq_ok accepted
  exact reached.identified place entry stored

theorem unpack_id (sized : settings.layout = .ok layout) (accepted : read settings layout text = .ok catalog)
    {place : Nat} {entry : Entry} (stored : catalog.entries[place]? = some entry) :
    layout.unpack entry.id = (entry.level.tag, entry.position) := by
  have identified := identified_of_read accepted stored
  rw [identified.packed, Layout.unpack_pack _ (Settings.layout_holds sized identified.within)]

/-- An id gives away the level and the position, and there is one entry there. -/
theorem place_eq_of_id_eq (sized : settings.layout = .ok layout)
    (accepted : read settings layout text = .ok catalog) {first second : Nat} {one two : Entry}
    (here : catalog.entries[first]? = some one) (there : catalog.entries[second]? = some two)
    (same : one.id = two.id) : first = second := by
  have unpacked := unpack_id sized accepted here
  rw [same, unpack_id sized accepted there, Prod.mk.injEq] at unpacked
  have level : two.level = one.level := Level.tag_inj unpacked.1
  have path := (identified_of_read accepted there).path
  rw [level, unpacked.2] at path
  exact (identified_of_read accepted here).path.place_unique path

/-- Taken apart by the masks and shifts of the layout, the id of an entry gives the tag of its level and
the way to it. Every number fits the bits it has, and different entries have different ids. -/
theorem id_unpacks_to_path (sized : settings.layout = .ok layout)
    (accepted : read settings layout text = .ok catalog) :
    (∀ (place : Nat) (entry : Entry), catalog.entries[place]? = some entry →
      ∃ position, catalog.PathTo place entry.level position ∧ layout.Holds position ∧
        layout.unpack entry.id = (entry.level.tag, position)) ∧
    ∀ (first second : Nat) (one two : Entry), catalog.entries[first]? = some one →
      catalog.entries[second]? = some two → one.id = two.id → first = second := by
  refine ⟨?_, fun first second one two here there same => place_eq_of_id_eq sized accepted here there same⟩
  intro place entry stored
  have identified := identified_of_read accepted stored
  exact ⟨entry.position, identified.path, Settings.layout_holds sized identified.within,
    unpack_id sized accepted stored⟩

theorem id_unpacks_to_path_two_addresses :
    ∃ layout catalog, ({} : Settings).layout = .ok layout ∧
      read {} layout "LW_A\n  _F\n    _V\n  _G\nLW_B\n" = .ok catalog ∧
      catalog.toList.map Entry.id = [0x40010000, 0x80010100, 0xc0010101, 0x80010200, 0x40020000] ∧
      ∀ (place : Nat) (entry : Entry), catalog.entries[place]? = some entry →
        ∃ position, catalog.PathTo place entry.level position ∧ layout.Holds position ∧
          layout.unpack entry.id = (entry.level.tag, position) := by
  have ids : ((read {} ⟨8, 8, 14, by decide⟩ "LW_A\n  _F\n    _V\n  _G\nLW_B\n").toOption.map fun catalog =>
      catalog.toList.map Entry.id) = some [0x40010000, 0x80010100, 0xc0010101, 0x80010200, 0x40020000] := by
    decide +kernel
  obtain ⟨catalog, accepted, ids⟩ := Option.map_eq_some_iff.mp ids
  rw [Outcome.toOption_eq_some] at accepted
  exact ⟨_, catalog, rfl, accepted, ids, (id_unpacks_to_path rfl accepted).1⟩

end Catalog
end RegisterCatalog
