import RegisterCatalog.Catalog.Forest
import RegisterCatalog.Proofs.OpenEntries

/-! The tree that is stored while a catalog is read. An entry goes behind the one above it, so that one is there to note
its place, and the places noted with an entry are those of the entries below it. -/

namespace RegisterCatalog

namespace Forest

theorem getElem?_push (forest : Forest) (entry : Entry) (place : Nat) :
    (forest.push entry).nodes[place]? =
      if place = forest.size then some { entry }
      else if entry.parent? = some place then forest.nodes[place]?.map (·.addChild forest.size)
      else forest.nodes[place]? := by
  unfold push size
  cases entry.parent? with
  | none => simp only [Array.getElem?_push, reduceCtorEq, if_false]
  | some above => simp only [Array.getElem?_push, Array.size_modify, Array.getElem?_modify, Option.some.injEq]

theorem entries_push (forest : Forest) (entry : Entry) : (forest.push entry).entries = forest.entries.push entry := by
  apply Array.ext_getElem?
  intro place
  rw [Array.getElem?_push, entries, entries, Array.getElem?_map, Array.getElem?_map, Array.size_map, getElem?_push, size]
  split
  · rfl
  · split
    · cases forest.nodes[place]? <;> rfl
    · rfl

theorem roots_push (forest : Forest) (entry : Entry) :
    (forest.push entry).roots = forest.roots ++ if entry.parent? = none then [forest.size] else [] := by
  unfold push
  cases entry.parent? <;> simp

theorem children_push {forest : Forest} {entry : Entry} (below : ∀ above, entry.parent? = some above → above < forest.size)
    (place : Nat) : (forest.push entry).children place =
      forest.children place ++ if entry.parent? = some place then [forest.size] else [] := by
  rw [children, children, getElem?_push]
  by_cases new : place = forest.size
  · have elsewhere : entry.parent? ≠ some place := fun same => Nat.ne_of_lt (below place same) new
    have absent : forest.nodes[place]? = none := Array.getElem?_eq_none (Nat.le_of_eq new.symm)
    rw [if_pos new, if_neg elsewhere, absent]
    rfl
  · rw [if_neg new]
    by_cases parent : entry.parent? = some place
    · obtain ⟨node, stored⟩ : ∃ node, forest.nodes[place]? = some node :=
        ⟨_, Array.getElem?_eq_getElem (below place parent)⟩
      rw [if_pos parent, if_pos parent, stored]
      rfl
    · rw [if_neg parent, if_neg parent, List.append_nil]

/-- The tree stores the entries of the catalog, and the places it notes are those that a search by parent finds. -/
structure Stores (forest : Forest) (catalog : Catalog) : Prop where
  entries : forest.entries = catalog.entries
  roots : forest.roots = catalog.roots
  children : ∀ place, forest.children place = catalog.children place

variable {forest : Forest} {catalog : Catalog} {entry : Entry}

theorem Stores.size_eq (stores : forest.Stores catalog) : forest.size = catalog.size := by
  rw [Catalog.size, ← stores.entries, Forest.entries, Array.size_map, size]

theorem Stores.push (stores : forest.Stores catalog) (below : ∀ above, entry.parent? = some above → above < catalog.size) :
    (forest.push entry).Stores (catalog.push entry) := by
  rw [← stores.size_eq] at below
  constructor
  case entries => rw [entries_push, stores.entries, Catalog.push]
  case roots =>
    rw [roots_push, stores.roots, stores.size_eq, Catalog.roots, Catalog.roots, Catalog.placesBelow_push]
  case children =>
    intro place
    rw [children_push below, stores.children, stores.size_eq, Catalog.children, Catalog.children, Catalog.placesBelow_push]

end Forest

namespace Catalog

variable {settings : Settings} {layout : Layout} {text : String} {catalog : Catalog}

theorem Reading.Reached.stores {reading : Reading} (reached : Reached settings layout reading) :
    reading.catalog.forest.Stores reading.catalog := by
  induction reached with
  | start => exact ⟨by simp [forest, Forest.entries, toList], rfl, fun _ => rfl⟩
  | @add before after line width word rest earlier done ih =>
    have linked := (Reached.add earlier done).linked
    obtain ⟨_, _, entry, _, _, _, rfl⟩ := add_eq_ok done
    rw [forest_push]
    apply ih.push
    intro above below
    exact linked.earlier before.catalog.size entry above (by simp [getElem?_push]) below

theorem stores_of_read (accepted : read settings layout text = .ok catalog) : catalog.forest.Stores catalog := by
  obtain ⟨_, reached, _⟩ := read_eq_ok accepted
  exact reached.stores

end Catalog
end RegisterCatalog
