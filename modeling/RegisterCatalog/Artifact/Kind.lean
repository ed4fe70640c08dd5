import RegisterCatalog.Artifact.Bindings
import RegisterCatalog.Artifact.IdentityHeader
import RegisterCatalog.Device
import RegisterCatalog.Files.Path

/-! The kinds of generated files. The name of a file tells its kind. -/

namespace RegisterCatalog

inductive Artifact
  | identities (level : Level)
  | bindings
  | table (device : String)
  | dependencies (device : String)
  deriving DecidableEq

namespace Artifact

def isTable : Artifact → Bool
  | table _ => true
  | _ => false

/-- The device in the middle of a file name; it must have a name. -/
def deviceIn? (name ending : String) : Option String :=
  ((Text.dropStart? Device.tableFileStart name).bind (Text.dropEnd? ending)).filter (!·.isEmpty)

def ofFileName? (name : String) : Option Artifact :=
  match Level.all.find? fun level => IdentityHeader.fileName level = name with
  | some level => some (identities level)
  | none =>
    if name = Bindings.fileName then some bindings
    else match deviceIn? name ".c", deviceIn? name ".d" with
      | some device, _ => some (table device)
      | none, some device => some (dependencies device)
      | none, none => none

/-- The kind of the file at a path, or the name that is not understood. -/
def ofPath (path : String) : Except String Artifact :=
  match Path.fileName? path with
  | none => .error path
  | some name =>
    match ofFileName? name with
    | some artifact => .ok artifact
    | none => .error name

end Artifact
end RegisterCatalog
