/-! Words and lines of a text. Both functions only cut: joined again, the pieces give back every
character that is neither blank nor part of a line ending. -/

namespace RegisterCatalog.Chars

/-- The white space characters of Unicode. They separate words and are trimmed from the ends. -/
def isBlank (c : Char) : Bool :=
  let code := c.toNat
  (9 ≤ code && code ≤ 13) || code == 0x20 || code == 0x85 || code == 0xA0 || code == 0x1680 ||
    (0x2000 ≤ code && code ≤ 0x200A) || code == 0x2028 || code == 0x2029 || code == 0x202F ||
    code == 0x205F || code == 0x3000

/-- The pieces between separators, empty ones included. There is always at least one. -/
def pieces (isSeparator : Char → Bool) : List Char → List (List Char)
  | [] => [[]]
  | c :: rest =>
    if isSeparator c then [] :: pieces isSeparator rest
    else match pieces isSeparator rest with
      | [] => [[c]]
      | piece :: later => (c :: piece) :: later

/-- The maximal runs of characters that are not blank. -/
def words (text : List Char) : List (List Char) :=
  (pieces isBlank text).filter fun piece => !piece.isEmpty

def trimStart (text : List Char) : List Char :=
  text.dropWhile isBlank

def trimEnd (text : List Char) : List Char :=
  (text.reverse.dropWhile isBlank).reverse

def trim (text : List Char) : List Char :=
  trimEnd (trimStart text)

/-- What reading from the right knows of the text after a character: its lines, and whether it
starts with a line feed. -/
structure LinesAfter where
  lines : List (List Char) := []
  atFeed : Bool := false

/-- A line feed ends a line, and a carriage return directly before it belongs to the ending. Any
other carriage return is part of its line. -/
def LinesAfter.read (c : Char) (after : LinesAfter) : LinesAfter :=
  if c == '\n' then { lines := [] :: after.lines, atFeed := true }
  else if c == '\r' && after.atFeed then { lines := after.lines }
  else match after.lines with
    | [] => { lines := [[c]] }
    | line :: later => { lines := (c :: line) :: later }

/-- The lines of a text. Text after the last line feed is a line only if there is some. -/
def lines (text : List Char) : List (List Char) :=
  (text.foldr LinesAfter.read {}).lines

theorem pieces_ne_nil (isSeparator : Char → Bool) (text : List Char) :
    pieces isSeparator text ≠ [] := by
  cases text with
  | nil => simp [pieces]
  | cons c rest =>
    unfold pieces
    split
    · simp
    · split <;> simp

theorem mem_words {word text : List Char} (member : word ∈ words text) : word ≠ [] := by
  simp only [words, List.mem_filter] at member
  rintro rfl
  simp at member

end RegisterCatalog.Chars

namespace RegisterCatalog.Text

def words (text : String) : List String :=
  (Chars.words text.toList).map String.ofList

def lines (text : String) : List String :=
  (Chars.lines text.toList).map String.ofList

end RegisterCatalog.Text
