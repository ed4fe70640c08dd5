import RegisterCatalog.Artifact.IdentityHeader
import RegisterCatalog.Resolution.Tally

/-! Device tables: a row for each target of a catalog on a device, as an array in C. The
preprocessor chooses among the alternatives of a row. -/

namespace RegisterCatalog

def Access.constant : Access → String
  | .any => "LWHAL_ACCESS_ANY"
  | .physical => "LWHAL_ACCESS_PHYSICAL"
  | .virtual => "LWHAL_ACCESS_VIRTUAL"

/-- What a slot is called by. A size and a privilege are told from elements by their first argument. -/
def Slot.arguments : Slot → List String
  | element tuple => tuple.map toString
  | size ordinal => ["LWHAL_INDEX_SIZE", toString ordinal]
  | privilege tuple => "LWHAL_INDEX_PRIV" :: tuple.map toString

def Slot.index (slot : Slot) : String :=
  "LWHAL_INDEX(" ++ String.intercalate ", " slot.arguments ++ ")"

structure TableRow where
  id : UInt32
  symbol : String
  slot : Slot
  access : Access
  capability? : Option String
  alternatives : List Alternative
  deriving DecidableEq

namespace TableRow

def ofTarget (variant : Variant) (target : Target) : TableRow :=
  { id := variant.entry.id
    symbol := variant.entry.symbol
    slot := target.slot
    access := variant.access
    capability? := variant.entry.capability?
    alternatives := target.alternatives }

/-- The row with one of its alternatives. -/
def content (row : TableRow) (alternative : Alternative) : String :=
  let parts := [Text.hexWord row.id, row.slot.index, "LWHAL_DOMAIN_" ++ alternative.domain,
    row.access.constant, row.capability?.getD "LWHAL_CAP_NONE", alternative.expression,
    alternative.offset?.getD "0"]
  "    LWHAL_ROW(" ++ String.intercalate ", " parts ++ "),"

/-- The alternatives as one conditional chain. An alternative without a guard ends it. -/
def chain (row : TableRow) (opened : Bool) : List Alternative → List String
  | [] => if opened then ["#endif"] else []
  | alternative :: rest =>
    match alternative.guard? with
    | some guard =>
      ((if opened then "#elif " else "#if ") ++ guard.text) :: row.content alternative ::
        row.chain true rest
    | none =>
      if opened then ["#else", row.content alternative, "#endif"] else [row.content alternative]

def lines (row : TableRow) : List String := row.chain false row.alternatives

def text (row : TableRow) : String := Text.ofLines row.lines

end TableRow

/-- The rows of all resolutions, or the failure of the last one. -/
def Resolution.rows : List Resolution → Except MacroTable.Cycle (List TableRow)
  | [] => .ok []
  | resolution :: rest => do
    let targets ← resolution.outcome
    return targets.map (TableRow.ofTarget resolution.variant) ++ (← rows rest)

structure DeviceTable where
  device : Device
  /-- The devices that use the table. -/
  sharing : List Device
  rows : List TableRow

namespace DeviceTable

def build (settings : Settings) (catalog : Catalog) (device : Device) (sharing : List Device)
    (table : MacroTable) : Except MacroTable.Cycle DeviceTable := do
  return { device, sharing, rows := ← Resolution.rows (catalog.resolve settings device table) }

/-- What building a table has to report. The summary is missing if a resolution failed. -/
def log (device : Device) (resolutions : List Resolution) : List LogMessage :=
  let tally := Tally.ofResolutions resolutions
  let summary := s!"{device.name}: {tally.targets} rows from {tally.variants} variants " ++
    s!"({tally.omitted} without definition, {tally.privileged} privileged, {tally.walks} probes)"
  resolutions.flatMap (Resolution.log device) ++
    match Resolution.rows resolutions with
    | .ok _ => [.info summary]
    | .error _ => []

/-- Puts lines under the condition that one of the guards is defined; without guards they stand
free. -/
def guarded (guards body : List String) : List String :=
  if guards.isEmpty then body
  else
    let condition := guards.map fun guard => s!"defined({guard})"
    ("#if " ++ String.intercalate " || " condition) :: body ++
      ["#endif // " ++ String.intercalate " || " guards]

/-- The guards of the devices that use the table; none if one of them is always compiled in. -/
def guards (table : DeviceTable) : List String :=
  let devices := if table.sharing.isEmpty then [table.device] else table.sharing
  if devices.all (·.featureGuard?.isSome) then devices.filterMap Device.featureGuard? else []

/-- The lines of the rows. The symbol stands before the first of several rows with one symbol. -/
def rowLines (last? : Option String) : List TableRow → List String
  | [] => []
  | row :: rest =>
    (if last? = some row.symbol then [] else [s!"    /* {row.symbol} */"]) ++ row.lines ++
      rowLines (some row.symbol) rest

def arrayLines (table : DeviceTable) : List String :=
  ["#include \"lwhal_table.h\"", "",
    s!"static const LWHAL_ROW_TYPE {table.device.tableSymbol}[] = \x7b"] ++
    rowLines none table.rows ++ ["    LWHAL_ROW_END()", "\x7d;", ""]

def registration (table : DeviceTable) (device : Device) : List String :=
  guarded device.featureGuard?.toList
    [s!"LWHAL_REGISTER_TABLE({device.name}, {table.device.tableSymbol});"]

def lines (table : DeviceTable) : List String :=
  [banner, s!"/* Register table for {table.device.name}. */", ""] ++
    guarded table.guards (table.arrayLines ++ table.sharing.flatMap table.registration)

def text (table : DeviceTable) : String := Text.ofLines table.lines

/-- The file of a device that has no table of its own. -/
def stub (device : Device) (reason : String) : String :=
  Text.ofLines [banner, s!"/* No register table for {device.name}: {reason}. */"]

end DeviceTable
end RegisterCatalog
