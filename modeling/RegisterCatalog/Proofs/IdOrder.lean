import RegisterCatalog.Proofs.Numbering

/-! Ids grow along a catalog. The position of an entry comes after the positions of all entries before it, compared
level by level from the address down, although the lower numbers start again below every new entry. Packing
keeps this order among the entries of one level. -/

namespace RegisterCatalog

namespace Position

theorem on_below_upper {above : Position} {level upper : Level} {number : Nat} (higher : upper.depth < level.depth) :
    (above.below level number).on upper = above.on upper := by
  cases level <;> cases upper <;> first | rfl | exact absurd higher (by decide)

theorem on_below_lower {above : Position} {level lower : Level} {number : Nat} (deeper : level.depth < lower.depth) :
    (above.below level number).on lower = 0 := by
  cases level <;> cases lower <;> first | rfl | exact absurd deeper (by decide)

/-- The number of `first` is the smaller one on the topmost level on which the two differ. -/
def Before (first second : Position) : Prop :=
  ∃ level, (∀ upper : Level, upper.depth < level.depth → first.on upper = second.on upper) ∧
    first.on level < second.on level

theorem Before.trans {first second third : Position} (one : first.Before second) (two : second.Before third) :
    first.Before third := by
  obtain ⟨level, same, less⟩ := one
  obtain ⟨other, also, lower⟩ := two
  rcases Nat.lt_trichotomy level.depth other.depth with above | equal | below
  · refine ⟨level, fun upper higher => ?_, also level above ▸ less⟩
    rw [same upper higher, also upper (by omega)]
  · have equal : level = other := Level.tag_inj (congrArg (· + 1) equal)
    subst equal
    exact ⟨level, fun upper higher => (same upper higher).trans (also upper higher), Nat.lt_trans less lower⟩
  · refine ⟨other, fun upper higher => ?_, same other below ▸ lower⟩
    rw [same upper (by omega), also upper higher]

end Position

namespace Layout

/-- A smaller number before the last digit outweighs the last digit. -/
private theorem join_lt_join {high greater low other radix : Nat} (less : high < greater) (small : low < radix) :
    high * radix + low < greater * radix + other := by
  have step : (high + 1) * radix ≤ greater * radix := Nat.mul_le_mul_right radix less
  rw [Nat.succ_mul] at step
  omega

theorem pack_lt {layout : Layout} {first second : Position} (level : Level) (one : layout.Holds first)
    (two : layout.Holds second) (before : first.Before second) :
    layout.pack level first < layout.pack level second := by
  rw [UInt32.lt_iff_toNat_lt, toNat_pack level one, toNat_pack level two]
  obtain ⟨decisive, same, less⟩ := before
  cases decisive with
  | address =>
    have less : first.address < second.address := less
    exact join_lt_join (join_lt_join (Nat.add_lt_add_left less _) one.field) one.value
  | field =>
    have address : first.address = second.address := same .address (by decide)
    have less : first.field < second.field := less
    rw [address]
    exact join_lt_join (Nat.add_lt_add_left less _) one.value
  | value =>
    have address : first.address = second.address := same .address (by decide)
    have field : first.field = second.field := same .field (by decide)
    rw [address, field]
    exact Nat.add_lt_add_left less _

end Layout

namespace Catalog.Reading

variable {settings : Settings} {layout : Layout}

def positionAbove (above : List Opened) : Position :=
  above.head?.elim {} fun parent => parent.entry.position

theorem position_of_stands {place : Outline.Place Opened} {level : Level} {entry : Entry}
    (stands : Entry.Stands settings layout level (place.above.head?.map Opened.toAbove)
      (place.previous?.map fun previous => previous.entry) entry) :
    entry.position = (positionAbove place.above).below level entry.number ∧
      entry.number = (place.previous?.map fun previous => previous.entry).elim 0 Entry.number + 1 := by
  have number : entry.number = (place.previous?.map fun previous => previous.entry).elim 0 Entry.number + 1 := by
    rw [Entry.number, stands.level, stands.position, Position.on_below]
  refine ⟨?_, number⟩
  rw [number, stands.position, positionAbove]
  cases place.above <;> rfl

theorem Reached.position_opened {reading : Reading} (reached : Reached settings layout reading) {opened : Opened}
    {above : List Opened} (within : opened :: above <:+ reading.opened) :
    opened.entry.position = (positionAbove above).below opened.entry.level opened.entry.number := by
  induction reached with
  | start => simp at within
  | add _ done ih =>
    obtain ⟨place, level, entry, placed, _, declared, rfl⟩ := add_eq_ok done
    have stands := Entry.ofWords_stands declared
    rcases List.suffix_cons_iff.mp within with same | within
    · cases same
      rw [stands.level]
      exact (position_of_stands stands).1
    · exact ih (within.trans (Outline.above_suffix placed))

theorem Reached.on_innermost {reading : Reading} (reached : Reached settings layout reading) {innermost upper : Opened}
    {inner above : List Opened} (opened : innermost :: inner <:+ reading.opened)
    (within : upper :: above <:+ innermost :: inner) {level : Level} (higher : level.depth ≤ upper.entry.level.depth) :
    innermost.entry.position.on level = upper.entry.position.on level := by
  induction inner generalizing innermost with
  | nil =>
    rcases List.suffix_cons_iff.mp within with same | within
    · cases same
      rfl
    · simp at within
  | cons next rest ih =>
    rcases List.suffix_cons_iff.mp within with same | within
    · cases same
      rfl
    · have linked := reached.linked
      have inside := (List.suffix_cons innermost _).trans opened
      have depth := linked.depth _ _ opened
      have lower := linked.depth _ _ (within.trans inside)
      have shorter := within.length_le
      simp only [List.length_cons] at depth shorter
      rw [reached.position_opened opened, Position.on_below_upper (by omega)]
      exact ih inside within

/-- A new entry comes after the innermost open one. -/
theorem Reached.innermost_before {before : Reading} {innermost : Opened} {inner : List Opened}
    {place : Outline.Place Opened} {level : Level} {entry : Entry} {width : Nat} (reached : Reached settings layout before)
    (opened : before.opened = innermost :: inner)
    (placed : Outline.place Opened.width before.opened width = .ok place) (deep : level.depth = place.above.length)
    (stands : Entry.Stands settings layout level (place.above.head?.map Opened.toAbove)
      (place.previous?.map fun previous => previous.entry) entry) :
    innermost.entry.position.Before entry.position := by
  have whole : innermost :: inner <:+ before.opened := opened ▸ List.suffix_rfl
  obtain ⟨position, number⟩ := position_of_stands stands
  have own : entry.position.on level = entry.number := by rw [position, Position.on_below]
  have upwards : ∀ upper : Level, upper.depth < level.depth →
      entry.position.on upper = (positionAbove place.above).on upper := by
    intro upper higher
    rw [position, Position.on_below_upper higher]
  refine ⟨level, ?_, ?_⟩
  · intro upper higher
    rw [upwards upper higher]
    rcases Outline.place_eq_ok placed with ⟨_, all, _⟩ | ⟨previous, _, within, _⟩
    · rw [all, opened]
      rfl
    · have depth := reached.linked.depth _ _ within
      rw [reached.on_innermost whole (opened ▸ within) (by omega), reached.position_opened within,
        Position.on_below_upper (by omega)]
  · rw [own, number]
    rcases Outline.place_eq_ok placed with ⟨none, all, _⟩ | ⟨previous, some, within, _⟩
    · have depth := reached.linked.depth _ _ whole
      rw [all, opened, List.length_cons] at deep
      rw [none, reached.position_opened whole, Position.on_below_lower (by omega)]
      exact Nat.succ_pos _
    · have depth := reached.linked.depth _ _ within
      have same : previous.entry.level = level := Level.tag_inj (congrArg (· + 1) (depth.trans deep.symm))
      rw [some, reached.on_innermost whole (opened ▸ within) (by omega), ← same]
      exact Nat.lt_succ_self _

theorem Reached.innermost_stored_last {reading : Reading} (reached : Reached settings layout reading) :
    reading.catalog.toList = [] ∨ ∃ earlier innermost inner, reading.opened = innermost :: inner ∧
      reading.catalog.toList = earlier ++ [innermost.entry] := by
  cases reached with
  | start => exact .inl rfl
  | add _ done =>
    obtain ⟨place, _, entry, _, _, _, rfl⟩ := add_eq_ok done
    exact .inr ⟨_, _, place.above, rfl, toList_push _ entry⟩

theorem Reached.positions_increasing {reading : Reading} (reached : Reached settings layout reading) :
    (reading.catalog.toList.map Entry.position).Pairwise Position.Before := by
  induction reached with
  | start => exact List.Pairwise.nil
  | @add before after line width word rest earlier done ih =>
    obtain ⟨place, level, entry, placed, deep, declared, rfl⟩ := add_eq_ok done
    have stands := Entry.ofWords_stands declared
    rw [toList_push, List.map_append, List.pairwise_append]
    refine ⟨ih, List.pairwise_singleton _ _, ?_⟩
    rw [List.map_singleton]
    intro position member new single
    cases List.mem_singleton.mp single
    rcases earlier.innermost_stored_last with empty | ⟨others, innermost, inner, opened, stored⟩
    · simp [empty] at member
    · have later := earlier.innermost_before opened placed deep stands
      rw [stored, List.map_append, List.pairwise_append] at ih
      rw [stored, List.map_append, List.mem_append] at member
      rcases member with old | last
      · exact (ih.2.2 position old _ List.mem_cons_self).trans later
      · cases List.mem_singleton.mp last
        exact later

end Catalog.Reading

namespace Catalog

variable {settings : Settings} {layout : Layout} {text : String} {catalog : Catalog}

theorem positions_increasing (accepted : read settings layout text = .ok catalog) :
    (catalog.toList.map Entry.position).Pairwise Position.Before := by
  obtain ⟨_, reached, _⟩ := read_eq_ok accepted
  exact reached.positions_increasing

theorem ids_increasing (sized : settings.layout = .ok layout) (accepted : read settings layout text = .ok catalog)
    (level : Level) : ((catalog.toList.filter fun entry => entry.level = level).map Entry.id).Pairwise (· < ·) := by
  have identity : ∀ entry ∈ catalog.toList, entry.id = layout.pack entry.level entry.position ∧ layout.Holds entry.position := by
    intro entry member
    obtain ⟨place, stored⟩ := Array.mem_iff_getElem?.mp (Array.mem_toList_iff.mp member)
    have identified := identified_of_read accepted stored
    exact ⟨identified.packed, Settings.layout_holds sized identified.within⟩
  have ordered := (List.pairwise_map.mp (positions_increasing accepted)).filter fun entry => entry.level = level
  rw [List.pairwise_map]
  apply ordered.imp_of_mem
  intro one two inside within before
  obtain ⟨first, here⟩ := List.mem_filter.mp inside
  obtain ⟨second, there⟩ := List.mem_filter.mp within
  obtain ⟨packed, holds⟩ := identity one first
  obtain ⟨packed', holds'⟩ := identity two second
  rw [packed, packed', of_decide_eq_true here, of_decide_eq_true there]
  exact Layout.pack_lt level holds holds' before

end Catalog
end RegisterCatalog
