/-! The natural order of names: a run of digits counts as the number it denotes, so `GPC9` stands
before `GPC10`. Everything else is compared character by character. -/

namespace RegisterCatalog.Chars

/-- The maximal runs of digits and of other characters, in order. -/
def runs : List Char → List (List Char)
  | [] => []
  | c :: rest =>
    match runs rest with
    | (d :: run) :: later =>
      if c.isDigit == d.isDigit then (c :: d :: run) :: later else [c] :: (d :: run) :: later
    | later => [c] :: later

/-- A run holds digits throughout if its first character is one. -/
def isNumeral (run : List Char) : Bool :=
  match run with
  | [] => false
  | c :: _ => c.isDigit

/-- Orders numerals by value, without limit on their length. Of two numerals with one value, the
one with fewer leading zeros is first. -/
def compareNumerals (left right : List Char) : Ordering :=
  let leftDigits := left.dropWhile (· == '0')
  let rightDigits := right.dropWhile (· == '0')
  (compare leftDigits.length rightDigits.length).then
    ((compare leftDigits rightDigits).then (compare left.length right.length))

def compareRuns (left right : List Char) : Ordering :=
  if isNumeral left && isNumeral right then compareNumerals left right else compare left right

def naturalCompare (left right : List Char) : Ordering :=
  (runs left).compareLex compareRuns (runs right)

end RegisterCatalog.Chars

namespace RegisterCatalog.Text

def naturalCompare (left right : String) : Ordering :=
  Chars.naturalCompare left.toList right.toList

end RegisterCatalog.Text
