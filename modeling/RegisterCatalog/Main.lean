import RegisterCatalog.CommandLine

/-! The program on the files of a machine. -/

namespace RegisterCatalog.Disk

/-- Names what a machine reports as the reason. -/
def faultOf : IO.Error → FileFault
  | .noFileOrDirectory .. => .notFound
  | .alreadyExists .. => .alreadyExists
  | .inappropriateType _ code _ => if code = 21 then .isDirectory else .notDirectory
  | fault => .other fault.toString

def attempt (action : IO α) : IO (Except FileFault α) := do
  try
    return .ok (← action)
  catch fault => return .error (faultOf fault)

/-- Reading from a directory fails in a way of its own. -/
def probe (path : String) : IO (Except FileFault Unit) := attempt do
  let handle ← IO.FS.Handle.mk path .read
  discard <| handle.read 1

def isDirectory (path : String) : IO Bool :=
  return (← probe path) matches .error .isDirectory

def isFile (path : String) : IO Bool :=
  return (← probe path) matches .ok ()

def readText (path : String) : IO (Except FileFault String) := do
  match ← attempt (IO.FS.readBinFile path) with
  | .error fault => return .error fault
  | .ok bytes =>
    match String.fromUTF8? bytes with
    | some text => return .ok text
    | none => return .error .notText

/-- Makes a directory, and the one above it first if that is missing. -/
partial def makeDirectories (path : String) : IO Unit := do
  try
    IO.FS.createDir path
  catch fault =>
    match faultOf fault, Path.parent? path with
    | .notFound, some above =>
      unless above.isEmpty do makeDirectories above
      IO.FS.createDir path
    | _, _ => unless ← isDirectory path do throw fault

def serve (shows : Severity → Bool) : FileRequest α → IO α
  | .isDirectory path => isDirectory path
  | .isFile path => isFile path
  | .readText path => readText path
  | .makeDirectories path => attempt (makeDirectories path)
  | .writeText path text => attempt (IO.FS.writeFile path text)
  | .log message => do if shows message.severity then IO.println message.line

/-- Runs a program on the files of the machine. -/
def run (shows : Severity → Bool) : Program α → IO α
  | .pure value => return value
  | .request operation next => do run shows (next (← serve shows operation))

end RegisterCatalog.Disk

def main (arguments : List String) : IO UInt32 := do
  let invocation := RegisterCatalog.CommandLine.read 0 arguments
  let report ← RegisterCatalog.Disk.run invocation.shows invocation.run
  report.output.forM IO.println
  report.errors.forM IO.eprintln
  return report.code
