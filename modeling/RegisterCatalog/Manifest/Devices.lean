import RegisterCatalog.Device
import RegisterCatalog.Toml.Record

/-! Device manifests: one `[[device]]` for each device. -/

namespace RegisterCatalog

open Toml (Record Value)

def Device.ofRecord? (record : Record) : Option Device := do
  return {
    name := ← record.required "name" 0 Value.string?
    headerDir := ← record.required "header_dir" 1 Value.string?
    displayDir? := ← record.optional "display_dir" 2 Value.string?
    featureGuard? := ← record.optional "feature_guard" 3 Value.string? }

/-- Reads a manifest. One without devices is empty. -/
def DeviceList.ofToml? (text : String) : Option DeviceList := do
  let manifest : Record := .named (← Toml.read text)
  let devices ← manifest.withDefault "device" 0 (fun value => do
    (← value.elements?).mapM fun element => element.record? >>= Device.ofRecord?) []
  return { devices }

end RegisterCatalog
