import RegisterCatalog.Settings
import RegisterCatalog.Toml.Record

/-! Settings files. Whatever a file leaves out has its default. -/

namespace RegisterCatalog

open Toml (Record Value)

def Limits.ofRecord? (record : Record) : Option Limits := do
  let default : Limits := {}
  return {
    addresses := ← record.withDefault "max_addresses" 0 Value.word32? default.addresses
    fields := ← record.withDefault "max_fields" 1 Value.word32? default.fields
    values := ← record.withDefault "max_values" 2 Value.word32? default.values }

namespace Settings

def ofRecord? (record : Record) : Option Settings := do
  let default : Settings := {}
  return {
    sourcePrefix := ← record.withDefault "source_prefix" 0 Value.string? default.sourcePrefix
    symbolPrefix := ← record.withDefault "symbol_prefix" 1 Value.string? default.symbolPrefix
    virtualPrefix := ← record.withDefault "virtual_prefix" 2 Value.string? default.virtualPrefix
    capabilityPrefix := ← record.withDefault "cap_prefix" 3 Value.string? default.capabilityPrefix
    searchRoots := ← record.withDefault "search_roots" 4 Value.strings? default.searchRoots
    headerFiles := ← record.withDefault "header_files" 5 Value.strings? default.headerFiles
    limits := ← record.withDefault "limits" 6 (fun value => value.record? >>= Limits.ofRecord?)
      default.limits }

/-- Reads a settings file. Keys that are not known are passed over. -/
def ofToml? (text : String) : Option Settings := do
  ofRecord? (.named (← Toml.read text))

end Settings
end RegisterCatalog
