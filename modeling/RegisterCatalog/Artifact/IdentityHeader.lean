import RegisterCatalog.Catalog.Basic
import RegisterCatalog.Text.Hexadecimal
import RegisterCatalog.Text.Render

/-! Identity headers: the packed ids of all entries of a level as preprocessor constants, with the
constants that take an id apart. -/

namespace RegisterCatalog

/-- The first line of every generated file in C. -/
def banner : String := "/* Generated by hal-gen. Do not edit. */"

structure IdentityHeader where
  catalog : Catalog
  level : Level
  layout : Layout

namespace IdentityHeader

def fileName : Level → String
  | .address => "lwhal_addr_ids.h"
  | .field => "lwhal_field_ids.h"
  | .value => "lwhal_value_ids.h"

/-- Keeps the header from being read twice. -/
def includeGuard (level : Level) : String :=
  Text.toUpper (Text.replace "." "_" (fileName level))

/-- A constant of the header. -/
structure Constant where
  name : String
  value : String
  deriving DecidableEq

def Constant.line (constant : Constant) : String :=
  s!"#define {constant.name} {constant.value}"

/-- Where each part of an id stands. -/
def partConstants (layout : Layout) : List Constant :=
  [("VALUE", 0, layout.valueMask), ("FIELD", layout.fieldShift, layout.fieldMask),
    ("ADDRESS", layout.addressShift, layout.addressMask),
    ("TYPE", layout.tagShift, layout.tagMask)].flatMap fun (part, shift, mask) =>
      [⟨s!"LWHAL_ID_{part}_SHIFT", toString shift⟩, ⟨s!"LWHAL_ID_{part}_MASK", Text.hexWord mask⟩]

def tagConstants : List Constant :=
  Level.all.map fun level => ⟨s!"LWHAL_ID_TYPE_{Text.toUpper level.name}", toString level.tag⟩

/-- The entries of the header's level, in the order of the catalog. -/
def entries (header : IdentityHeader) : List Entry :=
  header.catalog.toList.filter fun entry => entry.level = header.level

def idConstants (header : IdentityHeader) : List Constant :=
  header.entries.map fun entry => ⟨entry.symbol, Text.hexWord entry.id⟩

def lines (header : IdentityHeader) : List String :=
  let guard := includeGuard header.level
  [banner, s!"#ifndef {guard}", s!"#define {guard}", "",
    "#ifndef LWHAL_ID_LAYOUT", "#define LWHAL_ID_LAYOUT"] ++
  (partConstants header.layout ++ tagConstants).map Constant.line ++ ["#endif", ""] ++
  header.idConstants.map Constant.line ++ ["", s!"#endif // {guard}"]

def text (header : IdentityHeader) : String := Text.ofLines header.lines

end IdentityHeader
end RegisterCatalog
