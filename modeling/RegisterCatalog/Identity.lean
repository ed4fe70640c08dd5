import RegisterCatalog.Level

/-! Packed ids. An id is a 32-bit word that holds, from the low bits to the high ones, a value
number, a field number, an address number and the tag of the level. How many bits each number gets
follows from the limits of a catalog. -/

namespace RegisterCatalog

/-- How many siblings there may be on each level. -/
structure Limits where
  addresses : Nat := 16383
  fields : Nat := 255
  values : Nat := 255
  deriving DecidableEq

def Limits.on (limits : Limits) : Level → Nat
  | .address => limits.addresses
  | .field => limits.fields
  | .value => limits.values

/-- Where an entry stands: its number among its siblings, and the numbers of the entries above it.
Numbers start at one, and zero stands for a level that the entry does not reach. -/
structure Position where
  address : Nat := 0
  field : Nat := 0
  value : Nat := 0
  deriving DecidableEq

namespace Position

def on (position : Position) : Level → Nat
  | .address => position.address
  | .field => position.field
  | .value => position.value

/-- The position of the entry with this number on this level, below the entry at `above`. -/
def below (above : Position) (level : Level) (number : Nat) : Position :=
  match level with
  | .address => { address := number }
  | .field => { address := above.address, field := number }
  | .value => { address := above.address, field := above.field, value := number }

@[simp] theorem on_below (above : Position) (level : Level) (number : Nat) :
    (above.below level number).on level = number := by
  cases level <;> rfl

end Position

/-- The number of bits in which every number up to `greatest` can be written. -/
def bitWidth (greatest : Nat) : Nat :=
  if greatest = 0 then 0 else greatest.log2 + 1

/-- Every level tag fits in this many bits. -/
def tagBits : Nat := 2

/-- The widths of the parts of an id. All parts together fit in a word. -/
structure Layout where
  valueBits : Nat
  fieldBits : Nat
  addressBits : Nat
  fits : valueBits + fieldBits + addressBits + tagBits ≤ 32

/-- The limits ask for more bits than a word has. -/
structure TooWide where
  bits : Nat
  deriving DecidableEq

def TooWide.message (fault : TooWide) : String :=
  s!"id layout needs {fault.bits} bits, more than 32"

namespace Layout

def ofLimits (limits : Limits) : Except TooWide Layout :=
  let valueBits := bitWidth limits.values
  let fieldBits := bitWidth limits.fields
  let addressBits := bitWidth limits.addresses
  if fits : valueBits + fieldBits + addressBits + tagBits ≤ 32 then
    .ok { valueBits, fieldBits, addressBits, fits }
  else
    .error ⟨valueBits + fieldBits + addressBits + tagBits⟩

def fieldShift (layout : Layout) : Nat := layout.valueBits

def addressShift (layout : Layout) : Nat := layout.valueBits + layout.fieldBits

def tagShift (layout : Layout) : Nat := layout.valueBits + layout.fieldBits + layout.addressBits

/-- Joins the parts of an id. Bits beyond the word are lost. -/
def pack (layout : Layout) (level : Level) (position : Position) : UInt32 :=
  UInt32.ofNat
    (level.tag <<< layout.tagShift ||| position.address <<< layout.addressShift |||
      position.field <<< layout.fieldShift ||| position.value)

/-- The word with ones at `bits` places from `shift` on. -/
def maskAt (bits shift : Nat) : UInt32 :=
  UInt32.ofNat ((1 <<< bits - 1) <<< shift)

def valueMask (layout : Layout) : UInt32 := maskAt layout.valueBits 0

def fieldMask (layout : Layout) : UInt32 := maskAt layout.fieldBits layout.fieldShift

def addressMask (layout : Layout) : UInt32 := maskAt layout.addressBits layout.addressShift

def tagMask (layout : Layout) : UInt32 := maskAt tagBits layout.tagShift

end Layout
end RegisterCatalog
