import RegisterCatalog.Log

/-! Programs that use files. A program only describes what it asks for and how it goes on, so it can
be run on the files of a machine as well as on files that are kept in memory. -/

namespace RegisterCatalog

/-- Why a file cannot be used. -/
inductive FileFault
  | notFound
  | alreadyExists
  | notDirectory
  | isDirectory
  | notText
  | nameTooLong
  /-- The path has a character that no path has. -/
  | badPath
  /-- Anything else that a machine may report. -/
  | other (report : String)
  deriving DecidableEq

def FileFault.message : FileFault → String
  | notFound => "No such file or directory (os error 2)"
  | alreadyExists => "File exists (os error 17)"
  | notDirectory => "Not a directory (os error 20)"
  | isDirectory => "Is a directory (os error 21)"
  | notText => "stream did not contain valid UTF-8"
  | nameTooLong => "File name too long (os error 36)"
  | badPath => "file name contained an unexpected NUL byte"
  | other report => report

inductive FileRequest : Type → Type
  | isDirectory (path : String) : FileRequest Bool
  | isFile (path : String) : FileRequest Bool
  | readText (path : String) : FileRequest (Except FileFault String)
  /-- Makes a directory and those above it. -/
  | makeDirectories (path : String) : FileRequest (Except FileFault Unit)
  | writeText (path text : String) : FileRequest (Except FileFault Unit)
  | log (message : LogMessage) : FileRequest Unit

inductive Program (α : Type) : Type 1
  | pure (value : α)
  | request {β : Type} (operation : FileRequest β) (next : β → Program α)

namespace Program

def bind (program : Program α) (next : α → Program β) : Program β :=
  match program with
  | .pure value => next value
  | .request operation resume => .request operation fun reply => (resume reply).bind next

instance : Monad Program where
  pure := Program.pure
  bind := Program.bind

def send (operation : FileRequest α) : Program α := .request operation .pure

end Program
end RegisterCatalog
