/-! Looking for one text inside another: at its start, at its end, at its first occurrence, and at
every occurrence. -/

namespace RegisterCatalog.Chars

/-- The text before and after the first occurrence of `separator`. -/
def splitOnce (separator : List Char) : List Char → Option (List Char × List Char)
  | [] => if separator.isEmpty then some ([], []) else none
  | c :: rest =>
    match separator.isPrefixOf? (c :: rest) with
    | some after => some ([], after)
    | none => (splitOnce separator rest).map fun (before, after) => (c :: before, after)

def contains (part text : List Char) : Bool :=
  (splitOnce part text).isSome

/-- Replaces the occurrences of a non-empty `old` from left to right; none overlaps another. The
number counts the characters still covered by the last occurrence. -/
def replaceFrom (old new : List Char) : Nat → List Char → List Char
  | _, [] => []
  | covered + 1, _ :: rest => replaceFrom old new covered rest
  | 0, c :: rest =>
    if old.isPrefixOf (c :: rest) then new ++ replaceFrom old new (old.length - 1) rest
    else c :: replaceFrom old new 0 rest

/-- Replaces every occurrence of `old`. The empty text occurs before each character and at the
end. -/
def replace (old new text : List Char) : List Char :=
  if old.isEmpty then text.flatMap (fun c => new ++ [c]) ++ new
  else replaceFrom old new 0 text

end RegisterCatalog.Chars

namespace RegisterCatalog.Text

def startsWith (start text : String) : Bool :=
  start.toList.isPrefixOf text.toList

/-- What follows `start` in a text that begins with it. -/
def dropStart? (start text : String) : Option String :=
  (start.toList.isPrefixOf? text.toList).map String.ofList

/-- What precedes `ending` in a text that ends with it. -/
def dropEnd? (ending text : String) : Option String :=
  (ending.toList.isSuffixOf? text.toList).map String.ofList

def contains (part text : String) : Bool :=
  Chars.contains part.toList text.toList

def splitOnce (separator text : String) : Option (String × String) :=
  (Chars.splitOnce separator.toList text.toList).map fun (before, after) =>
    (String.ofList before, String.ofList after)

def replace (old new text : String) : String :=
  String.ofList (Chars.replace old.toList new.toList text.toList)

end RegisterCatalog.Text
