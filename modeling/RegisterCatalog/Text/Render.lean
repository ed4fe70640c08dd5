/-! Generated files are lists of lines; every line is ended by a line feed. -/

namespace RegisterCatalog.Text

def ofLines (lines : List String) : String :=
  String.join (lines.map (· ++ "\n"))

end RegisterCatalog.Text
