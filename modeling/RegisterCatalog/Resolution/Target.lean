import RegisterCatalog.Header.MacroTable
import RegisterCatalog.Resolution.Indexing

/-! Targets: the rows that a variant gets on a device, each with the expressions that may implement
it and the conditions that choose among them. What the headers do not define is left out. -/

namespace RegisterCatalog

/-- The macro that tells the size of an array in one of its dimensions. -/
def sizeMacro (name : String) (ordinal : Nat) : String := s!"{name}__SIZE_{ordinal}"

/-- Leads from a register to its privilege level mask. -/
def privilegeSuffix : String := "__PRIV_LEVEL_MASK"

/-- A condition that the preprocessor decides. -/
inductive Guard
  | present (name : String)
  /-- The name is defined, but not as an array. -/
  | scalar (name : String)
  /-- The name is defined as an array. -/
  | array (name : String)
  /-- Any other condition, as written. -/
  | written (condition : String)
  deriving DecidableEq

def Guard.text : Guard → String
  | present name => s!"defined({name})"
  | scalar name => s!"defined({name}) && !defined({sizeMacro name 1})"
  | array name => s!"defined({name}) && defined({sizeMacro name 1})"
  | written condition => condition

/-- One way to implement a target. -/
structure Alternative where
  guard? : Option Guard
  expression : String
  domain : String
  /-- What is added at run time. -/
  offset? : Option String
  deriving DecidableEq

/-- What a target tells of a variant. -/
inductive Slot
  | element (tuple : List Nat)
  /-- The size in a dimension whose indices are arguments; they are counted from one. -/
  | size (ordinal : Nat)
  | privilege (tuple : List Nat)
  deriving DecidableEq

def Slot.isPrivilege : Slot → Bool
  | privilege _ => true
  | _ => false

structure Target where
  slot : Slot
  /-- The first whose guard holds is taken. -/
  alternatives : List Alternative
  deriving DecidableEq

/-- A target has an alternative, or there is none. -/
def Target.ofAlternatives (slot : Slot) (alternatives : List Alternative) : List Target :=
  if alternatives.isEmpty then [] else [⟨slot, alternatives⟩]

def callText (name : String) (arguments : List Nat) : String :=
  s!"{name}(" ++ String.intercalate ", " (arguments.map toString) ++ ")"

/-- Cuts the arguments to `count`, or fills them up with zeros. -/
def fitArguments (count : Nat) (arguments : List Nat) : List Nat :=
  arguments.take count ++ List.replicate (count - arguments.length) 0

/-- Bit ranges of fields are wrapped, because they are no expressions by themselves. -/
def wrapFor (level : Level) (expression : String) : String :=
  if level = .field then s!"LWHAL_FIELD({expression})" else expression

/-- The ways to read one element of a defined name. A name without arguments is tried bare and then
as the first element of an array; only values are never arrays. -/
def elementAlternatives (level : Level) (known : HardwareName) (arguments : List Nat)
    (offset? : Option String) : List Alternative :=
  let alternative (guard : Guard) (expression : String) : Alternative :=
    ⟨some guard, wrapFor level expression, known.domain, offset?⟩
  if arguments.isEmpty then
    if level = .value then [alternative (.present known.name) known.name]
    else [alternative (.scalar known.name) known.name,
      alternative (.present known.name) (callText known.name [0])]
  else [alternative (.array known.name) (callText known.name arguments)]

/-- The mask is used with as many arguments as the walk to it has met. -/
def privilegeAlternative (mask : MacroTable.Destination) (indexed : IndexedName)
    (domain : String) : Alternative :=
  { guard? := some (.present mask.name)
    expression :=
      if mask.parameters = 0 then mask.name
      else callText mask.name (fitArguments mask.parameters indexed.arguments)
    domain
    offset? := indexed.offset? }

namespace MacroTable

/-- The privilege mask under one of the names of a register. Nothing else has one. -/
def privilegeOf (table : MacroTable) (level : Level) (indexed : IndexedName) (domain : String) :
    Except Cycle (Option Alternative) :=
  if level = .address then do
    let mask? ← table.resolve indexed.name [privilegeSuffix]
    return mask?.map fun mask => privilegeAlternative mask indexed domain
  else .ok none

/-- The ways to read an element under one of its names. An alias that turns out to have more
parameters than the entry has dimensions gets zeros for the others. -/
def elementsOf (table : MacroTable) (level : Level) (indexed : IndexedName) (domain : String)
    (isAlias : Bool) : Except Cycle (List Alternative) := do
  match ← table.resolve indexed.name [] with
  | none => return []
  | some found =>
    let arguments :=
      if isAlias && indexed.arguments.length < found.parameters then
        fitArguments found.parameters indexed.arguments
      else indexed.arguments
    return elementAlternatives level ⟨indexed.name, domain⟩ arguments indexed.offset?

end MacroTable

/-- What one name contributes to the targets of a tuple. -/
structure Contribution where
  privilege? : Option Alternative
  elements : List Alternative

/-- Looks up one name for a tuple, first for the privilege mask. -/
def MacroTable.contribution (table : MacroTable) (entry : Entry) (tuple : List Nat)
    (known : HardwareName) (isAlias : Bool) : Except Cycle Contribution := do
  let indexed := entry.indexName tuple known.name
  let privilege? ← table.privilegeOf entry.level indexed known.domain
  let elements ← table.elementsOf entry.level indexed known.domain isAlias
  return { privilege?, elements }

namespace Variant

/-- The size in a dimension, read off the name of the first element. -/
def sizeTargets (table : MacroTable) (entry : Entry) (names : List HardwareName) (ordinal : Nat) :
    List Target :=
  Target.ofAlternatives (.size ordinal) <| names.filterMap fun known =>
    let size := sizeMacro (entry.indexName entry.firstTuple known.name).name ordinal
    if table.contains size then some ⟨some (.present size), size, known.domain, none⟩ else none

/-- The privilege mask of an element comes before the element. -/
def tupleTargets (table : MacroTable) (entry : Entry) (names : List HardwareName)
    (tuple : List Nat) : Except MacroTable.Cycle (List Target) := do
  let found ← names.zipIdx.mapM fun (known, place) =>
    table.contribution entry tuple known (place != 0)
  return Target.ofAlternatives (.privilege tuple) (found.filterMap Contribution.privilege?) ++
    Target.ofAlternatives (.element tuple) (found.flatMap Contribution.elements)

/-- The dimensions whose indices are arguments, counted from one. -/
def argumentOrdinals (entry : Entry) : List Nat :=
  (List.range (entry.dimensions.countP fun dimension => dimension.rule = .argument)).map (· + 1)

/-- All targets of a variant: the sizes, then the elements tuple by tuple. -/
def targets (variant : Variant) (device : Device) (table : MacroTable) :
    Except MacroTable.Cycle (List Target) := do
  let names := variant.deviceNames device
  let sizes := (argumentOrdinals variant.entry).flatMap (sizeTargets table variant.entry names)
  let elements ← (indexTuples variant.entry.limits).mapM (tupleTargets table variant.entry names)
  return sizes ++ elements.flatten

end Variant
end RegisterCatalog
