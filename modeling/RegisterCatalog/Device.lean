/-! Devices and the lists of them. Devices with the same header directories have the same registers,
so the first of them has the table and the others share it. -/

namespace RegisterCatalog

structure Device where
  name : String
  /-- Directory of the headers, below each search root. -/
  headerDir : String
  /-- Second directory to look in. -/
  displayDir? : Option String := none
  /-- What must be defined for the device to be compiled in. -/
  featureGuard? : Option String := none
  deriving DecidableEq

namespace Device

/-- What the file name of every table starts with. -/
def tableFileStart : String := "lwhal_table_"

def tableFile (device : Device) : String := tableFileStart ++ device.name ++ ".c"

/-- The identifier of the device's table. -/
def tableSymbol (device : Device) : String := "lwhalTable_" ++ device.name

def sharesHeaders (device other : Device) : Bool :=
  device.headerDir == other.headerDir && device.displayDir? == other.displayDir?

end Device

structure DeviceList where
  devices : List Device
  deriving DecidableEq

namespace DeviceList

/-- The first device with this name, and its place. -/
def find? (list : DeviceList) (name : String) : Option (Device × Nat) :=
  list.devices.zipIdx.find? fun (device, _) => device.name = name

/-- The place of the first device with the headers of `device`. -/
def canonicalPlace (list : DeviceList) (device : Device) : Nat :=
  list.devices.findIdx device.sharesHeaders

/-- The device whose table `device` uses. -/
def canonical (list : DeviceList) (device : Device) : Device :=
  (list.devices.find? device.sharesHeaders).getD device

/-- Whether a device before this place has the same headers. -/
def isDuplicate (list : DeviceList) (place : Nat) (device : Device) : Bool :=
  list.canonicalPlace device != place

/-- The devices that use the table of `device`, the one it belongs to first. -/
def sharing (list : DeviceList) (device : Device) : List Device :=
  list.devices.filter device.sharesHeaders

/-- The number of each device: the place of the first one before it with the same headers, or else its own. -/
def canonicalPlaces (list : DeviceList) : List Nat :=
  list.devices.zipIdx.map fun pair =>
    ((list.devices.take pair.2).findIdx? fun earlier => earlier.sharesHeaders pair.1).getD pair.2

/-- The devices with the number of the one at this place. -/
def sharingAt (list : DeviceList) (place : Nat) : List Device :=
  let numbers := list.canonicalPlaces
  ((list.devices.zip numbers).filter fun pair => some pair.2 == numbers[place]?).map Prod.fst

end DeviceList
end RegisterCatalog
