import RegisterCatalog.Text.Words

/-! Paths as they are written. Nothing is normalised: a path is cut at its slashes, and pieces that
mean nothing are only passed over where the last name of a path is looked for. -/

namespace RegisterCatalog.Path

/-- The texts between the slashes. -/
def pieces (path : String) : List String :=
  (Chars.pieces (· == '/') path.toList).map String.ofList

/-- Whether a piece after the first one means nothing. -/
def isFiller (piece : String) : Bool := piece == "" || piece == "."

def ofPieces : List String → String
  | [""] => "/"
  | pieces => String.intercalate "/" pieces

/-- The path up to its last piece that means something, and that piece. The root and the empty path
have none. -/
def split? (path : String) : Option (String × String) :=
  match pieces path with
  | [] => none
  | first :: rest =>
    match rest.reverse.dropWhile isFiller with
    | last :: above => some (ofPieces (first :: (above.dropWhile isFiller).reverse), last)
    | [] => if first == "" then none else some ("", first)

/-- The path of the directory that a path is in. -/
def parent? (path : String) : Option String := (split? path).map Prod.fst

/-- The last name of a path. Dots are no names. -/
def fileName? (path : String) : Option String :=
  ((split? path).map Prod.snd).filter fun name => name != "." && name != ".."

/-- The path `right` seen from `left`. An absolute path does not depend on where it is seen from. -/
def join (left right : String) : String :=
  if right.toList.head? == some '/' then right
  else if left.isEmpty || left.toList.getLast? == some '/' then left ++ right
  else left ++ "/" ++ right

/-- The path with another last name. -/
def withFileName (path name : String) : String :=
  match split? path with
  | some (above, last) =>
    if last == "." || last == ".." then join path name else join above name
  | none => join path name

end RegisterCatalog.Path
