/-! Comments of the text inputs: `#` opens a comment that runs to the end of the line, and `\#` is a
plain `#`. -/

namespace RegisterCatalog.Chars

/-- The line without its comment, escaped marks resolved. A backslash before anything else is
kept. -/
def stripComment : List Char → List Char
  | [] => []
  | '\\' :: '#' :: rest => '#' :: stripComment rest
  | '#' :: _ => []
  | c :: rest => c :: stripComment rest

/-- Writes a text so that no comment starts in it. -/
def escapeComment : List Char → List Char
  | [] => []
  | c :: rest => if c == '#' then '\\' :: '#' :: escapeComment rest else c :: escapeComment rest

end RegisterCatalog.Chars

namespace RegisterCatalog.Text

def stripComment (line : String) : String :=
  String.ofList (Chars.stripComment line.toList)

def escapeComment (code : String) : String :=
  String.ofList (Chars.escapeComment code.toList)

end RegisterCatalog.Text
