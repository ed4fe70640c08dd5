import RegisterCatalog.Catalog.Fault
import RegisterCatalog.Files.Program
import RegisterCatalog.Header.MacroTable
import RegisterCatalog.Identity

/-! Why a compilation fails. -/

namespace RegisterCatalog

inductive Failure
  /-- A line of a catalog or of an allow list is wrong. -/
  | source (path : String) (fault : LineFault)
  | access (path : String) (fault : FileFault)
  /-- A settings file or a device manifest cannot be understood. -/
  | decode (path : String)
  | cycle (cycle : MacroTable.Cycle)
  | missingDriversRoot (path : String)
  | unknownArtifact (name : String)
  | unknownDevice (name : String)
  | layout (fault : TooWide)
  deriving DecidableEq

namespace Failure

/-- What lies behind a failure, if that is told apart from it. -/
def cause? : Failure → Option String
  | access _ fault => some fault.message
  | decode _ => some "not a TOML document of the expected form"
  | _ => none

def message : Failure → String
  | source path fault => s!"{path}: {fault.message}"
  | access path fault => s!"failed to access {path}: {fault.message}"
  | decode path => s!"failed to decode {path}: not a TOML document of the expected form"
  | cycle fault => fault.message
  | missingDriversRoot path => s!"drivers root {path} does not exist"
  | unknownArtifact name => s!"unrecognized output artifact `{name}`"
  | unknownDevice name => s!"device `{name}` is not listed in the devices manifest"
  | layout fault => fault.message

end Failure

/-- A program that may fail. -/
abbrev Job := ExceptT Failure Program

namespace Job

def send (operation : FileRequest α) : Job α := ExceptT.lift (Program.send operation)

def log (message : LogMessage) : Job Unit := send (.log message)

/-- A request about a path that may be refused. -/
def attempt (path : String) (operation : FileRequest (Except FileFault α)) : Job α := do
  match ← send operation with
  | .ok value => return value
  | .error fault => throw (.access path fault)

def readText (path : String) : Job String := attempt path (.readText path)

/-- Reads a file with a reader that does not tell what it dislikes. -/
def readWith (path : String) (read : String → Option α) : Job α := do
  match read (← readText path) with
  | some value => return value
  | none => throw (.decode path)

/-- Reads a file with a reader that points to a line. -/
def readLines (path : String) (read : String → Except LineFault α) : Job α := do
  match read (← readText path) with
  | .ok value => return value
  | .error fault => throw (.source path fault)

end Job
end RegisterCatalog
