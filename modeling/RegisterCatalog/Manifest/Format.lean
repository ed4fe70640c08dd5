import RegisterCatalog.Compilation
import RegisterCatalog.Manifest.Devices
import RegisterCatalog.Manifest.Settings

/-! The format of settings files and device manifests. -/

namespace RegisterCatalog

def ManifestFormat.toml : ManifestFormat := { settings? := Settings.ofToml?, devices? := DeviceList.ofToml? }

end RegisterCatalog
