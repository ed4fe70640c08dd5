import RegisterCatalog.Text.Search

/-! Dependency manifests: a make rule that names the inputs of a table. Each input also gets an
empty rule, so that one that has been deleted does not stop the build. -/

namespace RegisterCatalog

structure Dependencies where
  target : String
  inputs : List String
  deriving DecidableEq

namespace Dependencies

/-- Paths are separated by spaces, so a space in a path is escaped. -/
def escape (path : String) : String := Text.replace " " "\\ " path

def rule (dependencies : Dependencies) : String :=
  escape dependencies.target ++ ":" ++
    String.join (dependencies.inputs.map fun input => " \\\n  " ++ escape input) ++ "\n"

def emptyRule (input : String) : String := "\n" ++ escape input ++ ":\n"

def text (dependencies : Dependencies) : String :=
  dependencies.rule ++ String.join (dependencies.inputs.map emptyRule)

end Dependencies
end RegisterCatalog
