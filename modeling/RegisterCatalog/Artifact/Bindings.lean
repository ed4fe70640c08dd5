import RegisterCatalog.Artifact.AllowList
import RegisterCatalog.Text.Hexadecimal
import RegisterCatalog.Text.Render

/-! Bindings: a script that maps short names of the allowed symbols to their ids. -/

namespace RegisterCatalog

structure Bindings where
  catalog : Catalog
  allowed : AllowList
  symbolPrefix : String

namespace Bindings

def fileName : String := "lwhal_bindings.py"

def entries (bindings : Bindings) : List Entry :=
  bindings.catalog.toList.filter fun entry => bindings.allowed.allows entry.symbol

/-- The symbol without what all symbols start with. -/
def shortName (bindings : Bindings) (entry : Entry) : String :=
  (Text.dropStart? bindings.symbolPrefix entry.symbol).getD entry.symbol

def entryLine (bindings : Bindings) (entry : Entry) : String :=
  s!"    \"{bindings.shortName entry}\": {Text.hexConstant entry.id.toNat},"

def lines (bindings : Bindings) : List String :=
  ["# Generated by hal-gen. Do not edit.", "", "LWHAL_IDS = \x7b"] ++
    bindings.entries.map bindings.entryLine ++ ["\x7d"]

def text (bindings : Bindings) : String := Text.ofLines bindings.lines

end Bindings
end RegisterCatalog
