import RegisterCatalog.Catalog.Basic

/-! The tree of a catalog as it is stored. Storing an entry notes its place with the entry above it, or among the
roots, so nobody has to search for what stands below an entry. -/

namespace RegisterCatalog

/-- A stored entry with the places of the entries directly below it. -/
structure Node where
  entry : Entry
  children : List Nat := []

def Node.addChild (node : Node) (place : Nat) : Node :=
  { node with children := node.children ++ [place] }

structure Forest where
  nodes : Array Node := #[]
  roots : List Nat := []

namespace Forest

def size (forest : Forest) : Nat := forest.nodes.size

def entries (forest : Forest) : Array Entry := forest.nodes.map Node.entry

def children (forest : Forest) (place : Nat) : List Nat :=
  forest.nodes[place]?.elim [] Node.children

/-- Stores an entry behind all others. -/
def push (forest : Forest) (entry : Entry) : Forest :=
  match entry.parent? with
  | some above =>
    { forest with nodes := (forest.nodes.modify above (·.addChild forest.size)).push { entry } }
  | none => { nodes := forest.nodes.push { entry }, roots := forest.roots ++ [forest.size] }

end Forest

/-- The tree that comes of storing the entries one after the other. -/
def Catalog.forest (catalog : Catalog) : Forest := catalog.toList.foldl Forest.push {}

theorem Catalog.forest_push (catalog : Catalog) (entry : Entry) :
    (catalog.push entry).forest = catalog.forest.push entry := by
  rw [forest, toList_push, List.foldl_append]
  rfl

end RegisterCatalog
