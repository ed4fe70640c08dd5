import RegisterCatalog.Log
import RegisterCatalog.Resolution.Target

/-! Resolving a whole catalog for a device, and counting what came of it. -/

namespace RegisterCatalog

/-- The walks that an entry under these names takes for a tuple, in order, as names with their
suffixes. -/
def Entry.walks (entry : Entry) (names : List HardwareName) (tuple : List Nat) :
    List (String × List String) :=
  names.flatMap fun known =>
    let name := (entry.indexName tuple known.name).name
    if entry.level = .address then [(name, [privilegeSuffix]), (name, [])] else [(name, [])]

namespace MacroTable

def fails (table : MacroTable) (walk : String × List String) : Bool :=
  !(table.resolve walk.1 walk.2).isOk

/-- The number of walks taken for the tuples. A walk that fails is the last. -/
def countWalks (table : MacroTable) (entry : Entry) (names : List HardwareName) :
    List (List Nat) → Nat
  | [] => 0
  | tuple :: rest =>
    let walks := entry.walks names tuple
    match walks.findIdx? table.fails with
    | some place => place + 1
    | none => walks.length + table.countWalks entry names rest

end MacroTable

/-- What came of a variant on a device. -/
structure Resolution where
  variant : Variant
  outcome : Except MacroTable.Cycle (List Target)
  walks : Nat

def Variant.resolve (variant : Variant) (device : Device) (table : MacroTable) : Resolution :=
  { variant
    outcome := variant.targets device table
    walks :=
      table.countWalks variant.entry (variant.deviceNames device)
        (indexTuples variant.entry.limits) }

/-- Resolves the variants in order. The first that fails is the last to be resolved. -/
def Resolution.untilFailure (device : Device) (table : MacroTable) :
    List Variant → List Resolution
  | [] => []
  | variant :: rest =>
    let resolution := variant.resolve device table
    match resolution.outcome with
    | .ok _ => resolution :: untilFailure device table rest
    | .error _ => [resolution]

def Catalog.resolve (settings : Settings) (catalog : Catalog) (device : Device)
    (table : MacroTable) : List Resolution :=
  Resolution.untilFailure device table (catalog.variants settings)

/-- Counters over the resolutions of a run. -/
structure Tally where
  variants : Nat := 0
  /-- Variants without a target. -/
  omitted : Nat := 0
  targets : Nat := 0
  alternatives : Nat := 0
  privileged : Nat := 0
  walks : Nat := 0
  deriving DecidableEq

namespace Tally

/-- Counts a resolution in. A failed one has nothing but its walks. -/
def add (tally : Tally) (resolution : Resolution) : Tally :=
  match resolution.outcome with
  | .error _ => { tally with walks := tally.walks + resolution.walks }
  | .ok targets =>
    { variants := tally.variants + 1
      omitted := tally.omitted + if targets.isEmpty then 1 else 0
      targets := tally.targets + targets.length
      alternatives := tally.alternatives + (targets.flatMap Target.alternatives).length
      privileged := tally.privileged + targets.countP (·.slot.isPrivilege)
      walks := tally.walks + resolution.walks }

def ofResolutions (resolutions : List Resolution) : Tally :=
  resolutions.foldl add {}

end Tally

def Access.label : Access → String
  | .any => "Any"
  | .physical => "PhysicalOnly"
  | .virtual => "VirtualOnly"

/-- A variant without targets is worth a message: the device does not have the register. -/
def Resolution.log (device : Device) (resolution : Resolution) : List LogMessage :=
  match resolution.outcome with
  | .ok [] =>
    let symbol := resolution.variant.entry.symbol
    [.debug s!"{device.name}: {symbol} ({resolution.variant.access.label}) has no definition"]
  | _ => []

end RegisterCatalog
