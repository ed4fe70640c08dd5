import RegisterCatalog.Toml.Quoted
import RegisterCatalog.Toml.Value

/-! Numbers and times of TOML. -/

namespace RegisterCatalog.Toml

/-- What a reader makes of the start of a text, and the rest of the text. -/
abbrev Reader (α : Type) := List Char → Option (α × List Char)

namespace Number

/-- Digits, with single underscores between them left out. -/
def digits (isDigit : Char → Bool) : List Char → List Char × List Char
  | [] => ([], [])
  | c :: rest =>
    if isDigit c then
      let (more, after) := digits isDigit rest
      (c :: more, after)
    else if c == '_' && rest.head?.any isDigit then digits isDigit rest
    else ([], c :: rest)

/-- At least one digit. -/
def digits1 (isDigit : Char → Bool) (text : List Char) : Option (List Char × List Char) :=
  if text.head?.any isDigit then some (digits isDigit text) else none

def inBase (base : Nat) (digits : List Char) : Nat :=
  digits.foldl (fun number digit => number * base + (hexDigit? digit).getD 0) 0

/-- Whether there is a minus sign. -/
def sign : List Char → Bool × List Char
  | '-' :: rest => (true, rest)
  | '+' :: rest => (false, rest)
  | text => (false, text)

/-- Decimal digits without a leading zero, or a single zero. -/
def decimal (text : List Char) : Option (List Char × List Char) :=
  match text with
  | '0' :: rest => some (['0'], rest)
  | _ => digits1 Char.isDigit text

/-- Integers have 64 bits. -/
def bounded (number : Int) : Option Value :=
  if Int64.minValue.toInt ≤ number ∧ number ≤ Int64.maxValue.toInt then some (.integer number)
  else none

/-- An integer with the given base after its two-character mark. -/
def based (base : Nat) : Reader Value := fun text => do
  let isDigit (c : Char) := (hexDigit? c).any (· < base)
  let (found, rest) ← digits1 isDigit text
  return (← bounded (inBase base found), rest)

def integer : Reader Value := fun text =>
  match text with
  | '0' :: 'x' :: rest => based 16 rest
  | '0' :: 'o' :: rest => based 8 rest
  | '0' :: 'b' :: rest => based 2 rest
  | _ => do
    let (negative, rest) := sign text
    let (found, rest) ← decimal rest
    let magnitude : Int := inBase 10 found
    return (← bounded (if negative then -magnitude else magnitude), rest)

/-- Fraction digits, if there is a point. -/
def fraction (text : List Char) : Option (List Char × List Char) :=
  match text with
  | '.' :: rest => digits1 Char.isDigit rest
  | _ => some ([], text)

/-- The exponent, if there is one. -/
def exponent (text : List Char) : Option (Int × List Char) :=
  match text with
  | c :: rest =>
    if c == 'e' || c == 'E' then do
      let (negative, rest) := sign rest
      let (found, rest) ← digits1 Char.isDigit rest
      let magnitude : Int := inBase 10 found
      return (if negative then -magnitude else magnitude, rest)
    else some (0, text)
  | [] => some (0, text)

/-- From here on a number rounds to infinity in double precision. -/
def infinityBound : Nat := 1 <<< 1024 - 1 <<< 970

/-- Whether `mantissa` times ten to `exponent` rounds to infinity. The number of digits settles all
but the numbers near the bound. -/
def overflows (mantissa : List Char) (exponent : Int) : Bool :=
  let significant := mantissa.dropWhile (· == '0')
  let magnitude := significant.length + exponent
  if significant.isEmpty || magnitude < 300 then false
  else if 320 < magnitude then true
  else
    let number := inBase 10 significant
    infinityBound * Nat.pow 10 (-exponent).toNat ≤ number * Nat.pow 10 exponent.toNat

/-- A float has a fraction or an exponent. A positive one must not be too large. -/
def float : Reader Value := fun text => do
  let (negative, rest) := sign text
  let (whole, afterWhole) ← decimal rest
  let (part, rest) ← fraction afterWhole
  let (power, rest) ← exponent rest
  if rest.length = afterWhole.length then none
  else if !negative && overflows (whole ++ part) (power - part.length) then none
  else some (.float, rest)

def special : Reader Value := fun text =>
  match (sign text).2 with
  | 'i' :: 'n' :: 'f' :: rest => some (.float, rest)
  | 'n' :: 'a' :: 'n' :: rest => some (.float, rest)
  | _ => none

end Number

namespace Time

/-- A number of exactly `count` digits within bounds. -/
def part (count least greatest : Nat) : Reader Nat := fun text =>
  let found := text.take count
  let number := Number.inBase 10 found
  if found.length = count ∧ found.all Char.isDigit ∧ least ≤ number ∧ number ≤ greatest then
    some (number, text.drop count)
  else none

def expect (mark : Char) (text : List Char) : Option (List Char) :=
  match text with
  | c :: rest => if c == mark then some rest else none
  | [] => none

def isLeap (year : Nat) : Bool :=
  year % 4 == 0 && (year % 100 != 0 || year % 400 == 0)

def daysIn (year month : Nat) : Nat :=
  if month = 2 then (if isLeap year then 29 else 28)
  else if month = 4 ∨ month = 6 ∨ month = 9 ∨ month = 11 then 30
  else 31

def date (text : List Char) : Option (List Char) := do
  let (year, rest) ← part 4 0 9999 text
  let (month, rest) ← part 2 1 12 (← expect '-' rest)
  let (_, rest) ← part 2 1 (daysIn year month) (← expect '-' rest)
  return rest

/-- Digits after a point, if there are any. -/
def secondFraction (text : List Char) : List Char :=
  match text with
  | '.' :: rest => if rest.head?.any Char.isDigit then rest.dropWhile Char.isDigit else text
  | _ => text

/-- The second 60 is a leap second. -/
def clock (text : List Char) : Option (List Char) := do
  let (_, rest) ← part 2 0 23 text
  let (_, rest) ← part 2 0 59 (← expect ':' rest)
  let (_, rest) ← part 2 0 60 (← expect ':' rest)
  return secondFraction rest

def offset (text : List Char) : Option (List Char) :=
  match text with
  | c :: rest =>
    if c == 'Z' || c == 'z' then some rest
    else if c == '+' || c == '-' then do
      let (_, rest) ← part 2 0 23 rest
      let (_, rest) ← part 2 0 59 (← expect ':' rest)
      return rest
    else none
  | [] => none

/-- A clock time after a date, with an offset or without. -/
def afterDate (text : List Char) : List Char :=
  match text with
  | c :: rest =>
    if c == 'T' || c == 't' || c == ' ' then
      match clock rest with
      | some rest => (offset rest).getD rest
      | none => text
    else text
  | [] => text

def read : Reader Value := fun text =>
  match date text with
  | some rest => some (.time, afterDate rest)
  | none => (clock text).map fun rest => (.time, rest)

end Time
end RegisterCatalog.Toml
