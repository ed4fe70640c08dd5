/-! The two spellings of numbers in generated files: a packed id as a word of fixed width, and a
constant in groups of four digits. -/

namespace RegisterCatalog.Chars

/-- Hexadecimal digits, lower case, without leading zeros; zero is `0`. -/
def hexDigits (number : Nat) : List Char :=
  Nat.toDigits 16 number

/-- Puts an underscore after every digit that is followed by a positive multiple of four digits. -/
def groupByFour : List Char → List Char
  | [] => []
  | digit :: rest =>
    if rest.length % 4 == 0 && !rest.isEmpty then digit :: '_' :: groupByFour rest
    else digit :: groupByFour rest

end RegisterCatalog.Chars

namespace RegisterCatalog.Text

/-- Eight hexadecimal digits after `0x`. -/
def hexWord (word : UInt32) : String :=
  let digits := Chars.hexDigits word.toNat
  String.ofList ('0' :: 'x' :: (List.replicate (8 - digits.length) '0' ++ digits))

/-- A single decimal digit as it is, a larger number as grouped hexadecimal digits after `0x`. -/
def hexConstant (number : Nat) : String :=
  if number ≤ 9 then toString number
  else String.ofList ('0' :: 'x' :: Chars.groupByFour (Chars.hexDigits number))

end RegisterCatalog.Text
