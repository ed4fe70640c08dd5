import RegisterCatalog.Device
import RegisterCatalog.Failure
import RegisterCatalog.Files.Path
import RegisterCatalog.Settings

/-! Loading the headers of a device. A device with a header missing has no registers at all. -/

namespace RegisterCatalog

/-- What is known of a device: its macros, and the files they were read from. -/
structure LoadedHeaders where
  table : MacroTable := {}
  sources : List String := []

namespace LoadedHeaders

/-- Where a header may be: in the header directory below each search root, then in the display
directory. -/
def candidates (settings : Settings) (driversRoot : String) (device : Device) (file : String) :
    List String :=
  (device.headerDir :: device.displayDir?.toList).flatMap fun directory =>
    settings.searchRoots.map fun root =>
      Path.join (Path.join (Path.join driversRoot root) directory) file

/-- The first path at which there is a file. -/
def firstFile? : List String → Job (Option String)
  | [] => return none
  | path :: rest => do
    if ← Job.send (.isFile path) then return some path else firstFile? rest

/-- Reads the headers in order. The first that is nowhere to be found ends the loading with
nothing. -/
def loadAll (settings : Settings) (driversRoot : String) (device : Device)
    (loaded : LoadedHeaders) : List String → Job LoadedHeaders
  | [] => return loaded
  | file :: rest => do
    match ← firstFile? (candidates settings driversRoot device file) with
    | none =>
      Job.log (.warning s!"{device.name}: header {file} not found, no registers for this device")
      return {}
    | some path =>
      Job.log (.debug s!"{device.name}: reading {path}")
      let text ← Job.readText path
      loadAll settings driversRoot device
        { table := loaded.table.addText text, sources := loaded.sources ++ [path] } rest

def load (settings : Settings) (driversRoot : String) (device : Device) : Job LoadedHeaders :=
  loadAll settings driversRoot device {} settings.headerFiles

end LoadedHeaders
end RegisterCatalog
