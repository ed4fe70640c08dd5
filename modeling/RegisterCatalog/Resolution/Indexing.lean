import RegisterCatalog.Device
import RegisterCatalog.Resolution.Variant

/-! Names of array elements: which index tuples an array has, and what a hardware name becomes for a
device and a tuple. -/

namespace RegisterCatalog

/-- The tuples below the limits in lexicographic order. -/
def indexTuples : List Nat → List (List Nat)
  | [] => [[]]
  | limit :: rest => (List.range limit).flatMap fun index => (indexTuples rest).map (index :: ·)

/-- The text that a substitution puts in for an index. -/
def indexText (new : String) (index : Nat) : String :=
  Text.replace "%d" (toString index) new

/-- A hardware name for one index tuple. The indices that do not enter the name are arguments, or
are added at run time. -/
structure IndexedName where
  name : String
  arguments : List Nat
  offset? : Option String
  deriving DecidableEq

namespace Dimension

/-- Puts an index into a name. -/
def applyTo (name : String) (indexed : Dimension × Nat) : String :=
  match indexed.1.rule with
  | .substitute old new => Text.replace old (indexText new indexed.2) name
  | _ => name

def argument? (indexed : Dimension × Nat) : Option Nat :=
  match indexed.1.rule with
  | .argument => some indexed.2
  | _ => none

def stride? (indexed : Dimension × Nat) : Option String :=
  match indexed.1.rule with
  | .stride _ symbol => some s!"{indexed.2} * LWHAL_STRIDE({symbol})"
  | _ => none

end Dimension

def Entry.indexName (entry : Entry) (tuple : List Nat) (name : String) : IndexedName :=
  let indexed := entry.dimensions.zip tuple
  let strides := indexed.filterMap Dimension.stride?
  { name := indexed.foldl Dimension.applyTo name
    arguments := indexed.filterMap Dimension.argument?
    offset? := if strides.isEmpty then none else some (String.intercalate " + " strides) }

/-- The tuple of zeros, which stands for the array as a whole. -/
def Entry.firstTuple (entry : Entry) : List Nat :=
  List.replicate entry.dimensions.length 0

namespace Variant

/-- A name of the variant on a device. Below an address, arrays whose index is part of the name are
represented by their first element. -/
def deviceName (variant : Variant) (device : Device) (name : String) : String :=
  let name := variant.address.deviceRules.foldl (fun name rule => rule.apply device.name name) name
  if variant.entry.level = .address then name
  else (variant.address.dimensions.map fun dimension => (dimension, 0)).foldl Dimension.applyTo name

def deviceNames (variant : Variant) (device : Device) : List HardwareName :=
  variant.names.map fun known => { known with name := variant.deviceName device known.name }

end Variant
end RegisterCatalog
