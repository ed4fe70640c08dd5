import RegisterCatalog.Catalog.Entry

/-! Catalogs: the entries of a description in the order of their lines. An entry knows the place of
the entry above it, so the tree is a view of the sequence. -/

namespace RegisterCatalog

structure Catalog where
  entries : Array Entry := #[]

namespace Catalog

def size (catalog : Catalog) : Nat := catalog.entries.size

def push (catalog : Catalog) (entry : Entry) : Catalog :=
  { entries := catalog.entries.push entry }

def toList (catalog : Catalog) : List Entry := catalog.entries.toList

def parent? (catalog : Catalog) (place : Nat) : Option Nat :=
  catalog.entries[place]? >>= Entry.parent?

/-- The places of the entries that stand directly below `above`, or at the top if it is absent. -/
def placesBelow (catalog : Catalog) (above : Option Nat) : List Nat :=
  (catalog.entries.toList.zipIdx.filter fun (entry, _) => entry.parent? = above).map Prod.snd

def roots (catalog : Catalog) : List Nat := catalog.placesBelow none

def children (catalog : Catalog) (place : Nat) : List Nat := catalog.placesBelow (some place)

/-- The place of the topmost entry above `place`. A parent stands before its children, so the walk
goes down in places. -/
def addressPlace (catalog : Catalog) (place : Nat) : Nat :=
  match catalog.parent? place with
  | none => place
  | some above => if above < place then catalog.addressPlace above else place

/-- The address that an entry belongs to. -/
def addressOf (catalog : Catalog) (place : Nat) (entry : Entry) : Entry :=
  catalog.entries[catalog.addressPlace place]?.getD entry

@[simp] theorem toList_push (catalog : Catalog) (entry : Entry) :
    (catalog.push entry).toList = catalog.toList ++ [entry] := by
  simp [push, toList]

@[simp] theorem size_push (catalog : Catalog) (entry : Entry) :
    (catalog.push entry).size = catalog.size + 1 := by
  simp [push, size]

theorem getElem?_push (catalog : Catalog) (entry : Entry) (place : Nat) :
    (catalog.push entry).entries[place]? =
      if place = catalog.size then some entry else catalog.entries[place]? :=
  Array.getElem?_push

theorem lt_size {catalog : Catalog} {place : Nat} {entry : Entry}
    (stored : catalog.entries[place]? = some entry) : place < catalog.size :=
  (Array.getElem?_eq_some_iff.mp stored).1

theorem placesBelow_push (catalog : Catalog) (entry : Entry) (above : Option Nat) :
    (catalog.push entry).placesBelow above =
      catalog.placesBelow above ++ if entry.parent? = above then [catalog.size] else [] := by
  by_cases here : entry.parent? = above <;>
    simp [placesBelow, push, size, List.zipIdx_append, here]

theorem mem_placesBelow {catalog : Catalog} {above : Option Nat} {place : Nat} :
    place ∈ catalog.placesBelow above ↔
      ∃ entry, catalog.entries[place]? = some entry ∧ entry.parent? = above := by
  simp only [placesBelow, List.mem_map, List.mem_filter, Prod.exists, exists_eq_right,
    List.mem_zipIdx_iff_getElem?, decide_eq_true_eq, Array.getElem?_toList]

@[simp] theorem length_toList (catalog : Catalog) : catalog.toList.length = catalog.size := by
  simp [toList, size]

end Catalog
end RegisterCatalog
