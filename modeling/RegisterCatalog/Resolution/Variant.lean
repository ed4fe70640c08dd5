import RegisterCatalog.Catalog.Basic
import RegisterCatalog.Settings

/-! Variants: an entry whose address has a virtual register is resolved twice, once for each
environment. -/

namespace RegisterCatalog

/-- An entry with its address, the environment it is resolved for, and its names there. -/
structure Variant where
  entry : Entry
  address : Entry
  access : Access
  names : List HardwareName
  deriving DecidableEq

namespace Entry

/-- The virtual image that an address gives to everything below it. A virtual register is its own
image. -/
def imageFor? (settings : Settings) (address : Entry) : Option VirtualImage :=
  match address.virtualImage? with
  | some image => some image
  | none =>
    if Text.startsWith settings.virtualPrefix address.name then
      some ⟨settings.virtualPrefix, settings.virtualPrefix⟩
    else none

def virtualNames (entry : Entry) (image : VirtualImage) : List HardwareName :=
  entry.hardwareNames.filterMap fun known =>
    (image.of? known.name).map fun name => { known with name }

/-- The physical variant comes before the virtual one, which is left out if no name has an image. -/
def variants (settings : Settings) (address entry : Entry) : List Variant :=
  match address.imageFor? settings with
  | none => [⟨entry, address, entry.access, entry.hardwareNames⟩]
  | some image =>
    let physical : Variant := ⟨entry, address, .physical, entry.hardwareNames⟩
    match entry.virtualNames image with
    | [] => [physical]
    | names => [physical, ⟨entry, address, .virtual, names⟩]

theorem origin_of_variants {settings : Settings} {address entry : Entry} {variant : Variant}
    (member : variant ∈ variants settings address entry) : variant.entry = entry ∧ variant.address = address := by
  unfold variants at member
  split at member
  · cases List.mem_singleton.mp member
    exact ⟨rfl, rfl⟩
  · dsimp only at member
    split at member
    · cases List.mem_singleton.mp member
      exact ⟨rfl, rfl⟩
    · rw [List.mem_cons, List.mem_singleton] at member
      rcases member with rfl | rfl <;> exact ⟨rfl, rfl⟩

end Entry

/-- All variants of a catalog, in the order of its entries. -/
def Catalog.variants (settings : Settings) (catalog : Catalog) : List Variant :=
  catalog.toList.zipIdx.flatMap fun (entry, place) =>
    Entry.variants settings (catalog.addressOf place entry) entry

end RegisterCatalog
