import RegisterCatalog.Text.LetterCaseData

/-! Upper and lower case of whole texts. A character may become several, and a capital sigma at the
end of a word has a lower case of its own. -/

namespace RegisterCatalog.Text.LetterCase

def Shift.covers (shift : Shift) (code : Nat) : Bool :=
  shift.first ≤ code && code ≤ shift.last && (code - shift.first) % shift.step == 0

/-- The other case of a character: an expansion if it has one, else the shifted character, else the
character itself. -/
def convert (expansions : List (Nat × List Nat)) (shifts : List Shift) (c : Char) : List Char :=
  match expansions.lookup c.toNat with
  | some codes => codes.map Char.ofNat
  | none =>
    match shifts.find? fun shift => shift.covers c.toNat with
    | some shift => [Char.ofNat (c.toNat + shift.distance).toNat]
    | none => [c]

def upperChar (c : Char) : List Char :=
  convert upperExpansions upperShifts c

def lowerChar (c : Char) : List Char :=
  convert lowerExpansions lowerShifts c

def inRanges (ranges : List (Nat × Nat)) (c : Char) : Bool :=
  ranges.any fun (first, last) => first ≤ c.toNat && c.toNat ≤ last

/-- Whether the nearest character that counts is a cased one. -/
def meetsCased (neighbours : List Char) : Bool :=
  match neighbours.dropWhile (inRanges ignorableRanges) with
  | [] => false
  | c :: _ => inRanges casedRanges c

/-- Lower case of a text, given the characters before it with the nearest first. A capital sigma is
final if a cased character precedes it and none follows. -/
def lowerAfter (before : List Char) : List Char → List Char
  | [] => []
  | c :: rest =>
    let lowered :=
      if c == 'Σ' then [if meetsCased before && !meetsCased rest then 'ς' else 'σ']
      else lowerChar c
    lowered ++ lowerAfter (c :: before) rest

end RegisterCatalog.Text.LetterCase

namespace RegisterCatalog.Text

def toUpper (text : String) : String :=
  String.ofList (text.toList.flatMap LetterCase.upperChar)

def toLower (text : String) : String :=
  String.ofList (LetterCase.lowerAfter [] text.toList)

end RegisterCatalog.Text
