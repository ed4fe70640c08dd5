import RegisterCatalog.Artifact.Dependencies
import RegisterCatalog.Artifact.DeviceTable
import RegisterCatalog.Artifact.Kind
import RegisterCatalog.Header.Load

/-! Compilations: reading the inputs, making the file that the destination names, and writing it.
All texts are made before the first is written. -/

namespace RegisterCatalog

/-- How settings and lists of devices are written. -/
structure ManifestFormat where
  settings? : String → Option Settings
  devices? : String → Option DeviceList

/-- What to make, and from which files. -/
structure Request where
  format : ManifestFormat
  catalog : String
  devices : String
  driversRoot : String
  destination : String
  /-- Where the dependencies of a table are written besides. -/
  dependencies? : Option String := none
  allowList? : Option String := none
  settings? : Option String := none

/-- A file to be written. -/
structure Output where
  path : String
  text : String
  deriving DecidableEq

namespace Request

/-- The allow list is expected beside the catalog if none is given. -/
def allowListPath (request : Request) : String :=
  request.allowList?.getD (Path.withFileName request.catalog "allowlist.txt")

def artifact (request : Request) : Job Artifact :=
  match Artifact.ofPath request.destination with
  | .ok artifact => return artifact
  | .error name => throw (.unknownArtifact name)

def readSettings (request : Request) : Job Settings :=
  match request.settings? with
  | some path => Job.readWith path request.format.settings?
  | none => return {}

def layout (settings : Settings) : Job Layout :=
  match settings.layout with
  | .ok layout => return layout
  | .error fault => throw (.layout fault)

def readCatalog (request : Request) (settings : Settings) (layout : Layout) : Job Catalog := do
  let catalog ← Job.readLines request.catalog (Catalog.read settings layout)
  Job.log (.info s!"{request.catalog}: {catalog.size} entries")
  return catalog

def bindingsText (request : Request) (settings : Settings) (catalog : Catalog) : Job String := do
  let allowed ← Job.readLines request.allowListPath AllowList.read
  (allowed.unmatched catalog).forM fun pattern =>
    Job.log (.debug s!"allow-list entry {pattern} matches no symbol")
  return Bindings.text ⟨catalog, allowed, settings.symbolPrefix⟩

/-- A device as it is found in the manifest. -/
structure ListedDevice where
  list : DeviceList
  place : Nat
  device : Device

def findDevice (request : Request) (name : String) : Job ListedDevice := do
  let list ← Job.readWith request.devices request.format.devices?
  match list.find? name with
  | some (device, place) => return { list, place, device }
  | none => throw (.unknownDevice name)

def resolvedTable (settings : Settings) (catalog : Catalog) (listed : ListedDevice)
    (table : MacroTable) : Job String := do
  let device := listed.device
  (DeviceTable.log device (catalog.resolve settings device table)).forM Job.log
  match DeviceTable.build settings catalog device (listed.list.sharing device) table with
  | .ok table => return table.text
  | .error cycle => throw (.cycle cycle)

/-- The text of a device's table. A device that shares the table of another, or that has no
headers, gets a stub. -/
def tableText (settings : Settings) (catalog : Catalog) (listed : ListedDevice)
    (table : MacroTable) : Job String := do
  let device := listed.device
  if listed.list.isDuplicate listed.place device then
    let reason := s!"shares the table of {(listed.list.canonical device).name}"
    Job.log (.info s!"{device.name}: {reason}")
    return DeviceTable.stub device reason
  else if table.isEmpty then return DeviceTable.stub device "no register headers"
  else resolvedTable settings catalog listed table

def dependencies (request : Request) (target : String) (headers : LoadedHeaders) : Dependencies :=
  { target, inputs := request.catalog :: headers.sources }

def tableOutputs (request : Request) (settings : Settings) (catalog : Catalog) (name : String) :
    Job (List Output) := do
  let listed ← request.findDevice name
  let headers ← LoadedHeaders.load settings request.driversRoot listed.device
  let text ← tableText settings catalog listed headers.table
  let manifest := (request.dependencies request.destination headers).text
  return ⟨request.destination, text⟩ ::
    request.dependencies?.toList.map fun path => ⟨path, manifest⟩

def dependenciesText (request : Request) (settings : Settings) (name : String) : Job String := do
  let listed ← request.findDevice name
  let headers ← LoadedHeaders.load settings request.driversRoot listed.device
  let target := Path.withFileName request.destination listed.device.tableFile
  return (request.dependencies target headers).text

/-- Reads what is needed, and makes the texts without writing them. -/
def outputs (request : Request) : Job (List Output) := do
  unless ← Job.send (.isDirectory request.driversRoot) do
    throw (.missingDriversRoot request.driversRoot)
  let artifact ← request.artifact
  let settings ← request.readSettings
  let layout ← layout settings
  let catalog ← request.readCatalog settings layout
  let alone (text : String) : List Output := [⟨request.destination, text⟩]
  match artifact with
  | .identities level => return alone (IdentityHeader.text ⟨catalog, level, layout⟩)
  | .bindings => return alone (← request.bindingsText settings catalog)
  | .table device => request.tableOutputs settings catalog device
  | .dependencies device => return alone (← request.dependenciesText settings device)

end Request

/-- Writes a file, and makes the directories above it. -/
def Output.write (output : Output) : Job Unit := do
  match Path.parent? output.path with
  | some above =>
    unless above.isEmpty do Job.attempt above (.makeDirectories above)
  | none => pure ()
  Job.attempt output.path (.writeText output.path output.text)
  Job.log (.info s!"wrote {output.path}")

/-- Makes the outputs of a request and writes them in order. -/
def Request.compile (request : Request) : Job Unit := do
  (← request.outputs).forM Output.write

end RegisterCatalog
