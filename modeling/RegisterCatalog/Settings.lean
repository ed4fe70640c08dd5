import RegisterCatalog.Identity

/-! The conventions a catalog is read and compiled under: how names start, where the headers of a
device are, and how many entries there may be. -/

namespace RegisterCatalog

structure Settings where
  /-- Every address name starts with this. -/
  sourcePrefix : String := "LW_"
  /-- Takes the place of `sourcePrefix` in the symbols. -/
  symbolPrefix : String := "LWHAL_"
  /-- A name that starts with this denotes a virtual register. -/
  virtualPrefix : String := "LW_VIRTUAL_"
  /-- Every capability name starts with this. -/
  capabilityPrefix : String := "LWHAL_CAP_"
  /-- Where the header directories of the devices are, below the drivers root, in search order. -/
  searchRoots : List String := ["hw/inc", "hw/inc/published"]
  /-- The headers read for a device. A later one overrides the earlier ones. -/
  headerFiles : List String :=
    ["dev_bus.h", "dev_fb.h", "dev_graphics.h", "dev_master.h", "dev_pri.h", "dev_disp.h"]
  limits : Limits := {}
  deriving DecidableEq

namespace Settings

/-- One more header, read last. -/
def addHeaderFile (settings : Settings) (file : String) : Settings :=
  { settings with headerFiles := settings.headerFiles ++ [file] }

def layout (settings : Settings) : Except TooWide Layout :=
  Layout.ofLimits settings.limits

end Settings
end RegisterCatalog
