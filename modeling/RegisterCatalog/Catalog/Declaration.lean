import RegisterCatalog.Catalog.Directive
import RegisterCatalog.Settings
import RegisterCatalog.Text.NaturalOrder

/-! How a line makes an entry: its first word declares it, and each directive changes it. -/

namespace RegisterCatalog.Entry

/-- An entry above another, with its place in the catalog. -/
structure Above where
  place : Nat
  entry : Entry

/-- Fields and values may be written with an underscore before their name. -/
def dropUnderscore (word : String) : String :=
  (Text.dropStart? "_" word).getD word

def nameOf (level : Level) (word : String) : Except Fault String :=
  let name := if level = .address then word else dropUnderscore word
  if name.isEmpty then .error (.malformedArgument level.name word) else .ok name

/-- Siblings have different names, in natural order. -/
def checkOrder (previous? : Option Entry) (name : String) : Except Fault Unit :=
  match previous? with
  | none => .ok ()
  | some previous =>
    if previous.name = name then .error (.duplicateName name)
    else if Text.naturalCompare name previous.name = .gt then .ok ()
    else .error (.outOfOrder previous.name name)

/-- Siblings are numbered from one up to the limit of their level. -/
def numberAfter (limits : Limits) (level : Level) (previous? : Option Entry) : Except Fault Nat :=
  let number := match previous? with
    | none => 1
    | some previous => previous.number + 1
  if limits.on level < number then .error (.sequenceOverflow level (limits.on level))
  else .ok number

/-- The entry that a word declares on a level, after `previous?` and below `above?`. An address must
start with the source prefix; anything else extends the names of the entry above it. -/
def declare (settings : Settings) (layout : Layout) (line : Nat) (level : Level)
    (above? : Option Above) (previous? : Option Entry) (word : String) : Except Fault Entry := do
  let name ← nameOf level word
  checkOrder previous? name
  let number ← numberAfter settings.limits level previous?
  match above? with
  | none =>
    match Text.dropStart? settings.sourcePrefix name with
    | none => .error (.missingSourcePrefix settings.sourcePrefix)
    | some rest =>
      let position := ({} : Position).below level number
      return {
        name, level, line, position
        symbol := settings.symbolPrefix ++ rest
        hardwareNames := [⟨name, defaultDomain⟩]
        id := layout.pack level position }
  | some above =>
    let position := above.entry.position.below level number
    return {
      name, level, line, position
      symbol := above.entry.symbol ++ "_" ++ name
      hardwareNames := above.entry.hardwareNames.map fun known =>
        { known with name := known.name ++ "_" ++ name }
      id := layout.pack level position
      parent? := some above.place }

/-- An entry has one virtual image at most, and a virtual register has none. -/
def checkVirtual (settings : Settings) (entry : Entry) : Except Fault Unit :=
  if entry.virtualImage?.isSome then .error (.alreadySet .virtualImage)
  else if Text.startsWith settings.virtualPrefix entry.name then .error .alreadyVirtual
  else .ok ()

/-- Adds a name unless the list has it. -/
def insertName (names : List HardwareName) (name : HardwareName) : List HardwareName :=
  if name ∈ names then names else names ++ [name]

/-- Another name for an address stands by itself. Another name for a field or value takes the place
of its own name at the end of every hardware name. -/
def addSynonym (entry : Entry) (synonym : String) : Entry :=
  if entry.level = .address then
    { entry with hardwareNames := entry.hardwareNames ++ [⟨synonym, entry.domain⟩] }
  else
    let added := entry.hardwareNames.filterMap fun known =>
      (Text.dropEnd? ("_" ++ entry.name) known.name).map fun stem =>
        { known with name := stem ++ "_" ++ dropUnderscore synonym }
    { entry with hardwareNames := added.foldl insertName entry.hardwareNames }

def addDimension (entry : Entry) (limit : Nat) (rule : IndexRule) : Entry :=
  { entry with dimensions := entry.dimensions ++ [⟨limit, rule⟩] }

/-- The effect of a directive that is allowed on the entry's level. -/
def applyAllowed (settings : Settings) (entry : Entry) : Directive → Except Fault Entry
  | .arrayLimit limit => .ok (entry.addDimension limit .argument)
  | .domain name =>
    if entry.domain?.isSome then .error (.alreadySet .domain)
    else .ok { entry with
      domain? := some name
      hardwareNames := entry.hardwareNames.map fun known => { known with domain := name } }
  | .virtualImage target => do
    checkVirtual settings entry
    if Text.startsWith settings.virtualPrefix target then
      return { entry with virtualImage? := some ⟨entry.name, target⟩ }
    else .error (.badVirtualPrefix target settings.virtualPrefix)
  | .virtualExport => do
    checkVirtual settings entry
    return { entry with virtualImage? := some ⟨settings.sourcePrefix, settings.virtualPrefix⟩ }
  | .replaceArray old new limit => .ok (entry.addDimension limit (.substitute old new))
  | .replaceStride old stride limit =>
    match Text.dropStart? settings.sourcePrefix stride with
    | none => .error (.malformedArgument Directive.arrayWord stride)
    | some rest => .ok (entry.addDimension limit (.stride old (settings.symbolPrefix ++ rest)))
  | .replaceString old new => .ok { entry with deviceRules := entry.deviceRules ++ [⟨old, new⟩] }
  | .synonym name => .ok (entry.addSynonym name)
  | .capability name =>
    if entry.capability?.isSome then .error (.alreadySet .capability)
    else if Text.startsWith settings.capabilityPrefix name then
      .ok { entry with capability? := some name }
    else .error (.badCapabilityPrefix name settings.capabilityPrefix)

def apply (settings : Settings) (entry : Entry) (directive : Directive) : Except Fault Entry :=
  if directive.allowedOn entry.level then applyAllowed settings entry directive
  else .error (.invalidDirective directive.label)

/-- The entry of a whole line: declared by its first word, changed by the directives in order. All
directives are read before the first takes effect. -/
def ofWords (settings : Settings) (layout : Layout) (line : Nat) (level : Level)
    (above? : Option Above) (previous? : Option Entry) (word : String) (rest : List String) :
    Except Fault Entry := do
  let entry ← declare settings layout line level above? previous? word
  (← Directive.readAll rest).foldlM (apply settings) entry

end RegisterCatalog.Entry
