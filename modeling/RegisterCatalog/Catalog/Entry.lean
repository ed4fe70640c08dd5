import RegisterCatalog.Identity
import RegisterCatalog.Text.LetterCase
import RegisterCatalog.Text.Search

/-! Entries of a catalog: what one line of it declares. -/

namespace RegisterCatalog

/-- A name under which an entry may be found in the hardware headers, and the domain it lives in. -/
structure HardwareName where
  name : String
  domain : String
  deriving DecidableEq

/-- The domain of an address that names none. -/
def defaultDomain : String := "RAW"

/-- How an array index enters a hardware name. -/
inductive IndexRule
  /-- The index is an argument, as in `NAME(i)`. -/
  | argument
  /-- The text `old` becomes `new`, in which `%d` stands for the index. -/
  | substitute (old new : String)
  /-- The name stays, and the index scales a stride known at run time. -/
  | stride (old symbol : String)
  deriving DecidableEq

/-- The text that a name must contain for the rule to apply. -/
def IndexRule.part? : IndexRule → Option String
  | argument => none
  | substitute old _ => some old
  | stride old _ => some old

structure Dimension where
  limit : Nat
  rule : IndexRule
  deriving DecidableEq

/-- Replaces `old` by `new`, in which the device may be named in upper or in lower case. -/
structure DeviceRule where
  old : String
  new : String
  deriving DecidableEq

def DeviceRule.replacement (rule : DeviceRule) (device : String) : String :=
  Text.replace "\x7bdevice\x7d" (Text.toLower device)
    (Text.replace "\x7bDEVICE\x7d" (Text.toUpper device) rule.new)

def DeviceRule.apply (rule : DeviceRule) (device name : String) : String :=
  Text.replace rule.old (rule.replacement device) name

/-- The virtual register of a register: the names that start with `source` start with `target`
instead. -/
structure VirtualImage where
  source : String
  target : String
  deriving DecidableEq

def VirtualImage.of? (image : VirtualImage) (name : String) : Option String :=
  (Text.dropStart? image.source name).map fun rest => image.target ++ rest

/-- The environment a register is accessed in. -/
inductive Access
  | any
  | physical
  | virtual
  deriving DecidableEq

/-- One declared address, field or value. -/
structure Entry where
  /-- Tells the entry from its siblings. -/
  name : String
  level : Level
  /-- Tells the entry from all others of its catalog. -/
  symbol : String
  hardwareNames : List HardwareName
  position : Position
  id : UInt32
  dimensions : List Dimension := []
  deviceRules : List DeviceRule := []
  virtualImage? : Option VirtualImage := none
  capability? : Option String := none
  domain? : Option String := none
  /-- Place of the entry above in the catalog. -/
  parent? : Option Nat := none
  line : Nat
  deriving DecidableEq

namespace Entry

/-- The entry's place among its siblings. -/
def number (entry : Entry) : Nat := entry.position.on entry.level

def domain (entry : Entry) : String := entry.domain?.getD defaultDomain

/-- Entries are declared for every environment. -/
def access (_ : Entry) : Access := .any

def limits (entry : Entry) : List Nat := entry.dimensions.map Dimension.limit

end Entry
end RegisterCatalog
