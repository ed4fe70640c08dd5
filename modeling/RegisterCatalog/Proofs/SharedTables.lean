import Mathlib.Data.List.Nodup
import Mathlib.Order.Bounds.Defs
import RegisterCatalog.Proofs.FeatureGuards
import RegisterCatalog.Proofs.ReadAnswers
import RegisterCatalog.Proofs.WriteOrder

/-! Who has which table. Devices with the same headers are a class; the first of the class has the table and
registers it for all of them, the others get stubs. The classes are disjoint and leave nobody out, so every
device is registered once. -/

namespace RegisterCatalog

namespace Device

variable {first second : Device}

theorem sharesHeaders_iff : first.sharesHeaders second ↔
    first.headerDir = second.headerDir ∧ first.displayDir? = second.displayDir? := by
  simp [sharesHeaders]

theorem sharesHeaders_refl (device : Device) : device.sharesHeaders device := by
  simp [sharesHeaders]

theorem sharesHeaders_congr (same : first.sharesHeaders second) : first.sharesHeaders = second.sharesHeaders := by
  obtain ⟨headers, display⟩ := sharesHeaders_iff.mp same
  funext other
  rw [sharesHeaders, sharesHeaders, headers, display]

end Device

namespace DeviceList

variable {list : DeviceList} {device other : Device} {place : Nat}

theorem canonicalPlace_congr (same : device.sharesHeaders other) :
    list.canonicalPlace device = list.canonicalPlace other := by
  rw [canonicalPlace, canonicalPlace, Device.sharesHeaders_congr same]

theorem getElem?_canonicalPlace (member : device ∈ list.devices) :
    list.devices[list.canonicalPlace device]? = some (list.canonical device) ∧
      device.sharesHeaders (list.canonical device) := by
  have found : ∃ owner, list.devices.find? device.sharesHeaders = some owner := by
    apply Option.isSome_iff_exists.mp
    exact List.find?_isSome.mpr ⟨device, member, device.sharesHeaders_refl⟩
  obtain ⟨owner, found⟩ := found
  have chosen : list.canonical device = owner := by rw [canonical, found, Option.getD_some]
  rw [chosen, canonicalPlace, ← List.find?_eq_getElem?_findIdx]
  exact ⟨found, List.find?_some found⟩

theorem canonicalPlace_le (listed : list.devices[place]? = some other) (same : device.sharesHeaders other) :
    list.canonicalPlace device ≤ place := by
  obtain ⟨inside, rfl⟩ := List.getElem?_eq_some_iff.mp listed
  apply Nat.le_of_not_lt
  intro before
  have different : device.sharesHeaders list.devices[place] = false := List.not_of_lt_findIdx before
  rw [same] at different
  cases different

theorem canonicalPlace_canonical (member : device ∈ list.devices) :
    list.canonicalPlace (list.canonical device) = list.canonicalPlace device :=
  (canonicalPlace_congr (getElem?_canonicalPlace member).2).symm

end DeviceList

namespace Request
open Job

variable {request : Request} {settings : Settings} {catalog : Catalog} {list : DeviceList} {device : Device} {place : Nat}

/-- Two devices with the same headers and a third one. -/
def pairAndThird : DeviceList := ⟨[⟨"a", "d", none, none⟩, ⟨"b", "d", none, some "FB"⟩, ⟨"c", "e", none, none⟩]⟩

def pairAndThirdFiles : FileTree :=
  [(["devices.toml"], .file (.text ("[[device]]\nname = \"a\"\nheader_dir = \"d\"\n[[device]]\nname = \"b\"\n" ++
      "header_dir = \"d\"\nfeature_guard = \"FB\"\n[[device]]\nname = \"c\"\nheader_dir = \"e\"\n"))),
    (["drivers"], .directory), (["drivers", "d"], .directory), (["drivers", "e"], .directory),
    (["drivers", "d", "x.h"], .file (.text "#define LW_A 0x10\n")),
    (["drivers", "e", "x.h"], .file (.text "#define LW_A 0x20\n"))].foldl (fun tree (names, node) => tree.put names node) {}

def singleHeader : Settings := { searchRoots := ["."], headerFiles := ["x.h"] }

end Request
end RegisterCatalog
