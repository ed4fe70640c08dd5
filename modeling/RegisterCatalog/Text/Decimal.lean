/-! Reading decimal numbers that have to fit a 32-bit word. -/

namespace RegisterCatalog.Chars

/-- The number a list of decimal digits denotes; nothing if there is no digit or something else. -/
def decimal? (digits : List Char) : Option Nat :=
  if digits.isEmpty || !digits.all Char.isDigit then none
  else some (digits.foldl (fun number digit => number * 10 + (digit.toNat - 48)) 0)

/-- A decimal number with at most one plus sign before it. Leading zeros do not matter. -/
def signedDecimal? : List Char → Option Nat
  | '+' :: digits => decimal? digits
  | digits => decimal? digits

end RegisterCatalog.Chars

namespace RegisterCatalog.Text

/-- A number that fits a 32-bit word. -/
def word32? (text : String) : Option Nat :=
  (Chars.signedDecimal? text.toList).filter (· < UInt32.size)

end RegisterCatalog.Text
