import RegisterCatalog.Toml.Number

/-! TOML documents. A document is a sequence of sections: the first has no header, and each header
starts another one. -/

namespace RegisterCatalog.Toml

def skipBlanks (text : List Char) : List Char := text.dropWhile isBlank

/-- Skips blanks, line ends and comments. -/
def skipFiller (inComment : Bool) : List Char → List Char
  | [] => []
  | c :: rest =>
    if atLineFeed c rest then skipFiller false rest
    else if inComment then (if isTextChar c then skipFiller true rest else c :: rest)
    else if isBlank c then skipFiller false rest
    else if c == '#' then skipFiller true rest
    else c :: rest

/-- What follows a line, if there is nothing but a comment left on it. -/
def lineEnd (text : List Char) : Option (List Char) :=
  let text := skipBlanks text
  let text := if text.head? == some '#' then text.dropWhile isTextChar else text
  match text with
  | [] => some []
  | '\n' :: rest => some rest
  | '\r' :: '\n' :: rest => some rest
  | _ => none

def isKeyChar (c : Char) : Bool :=
  c.isAlphanum || c == '-' || c == '_'

def readKey : Reader String := fun text =>
  match text with
  | '"' :: rest => Quoted.readLine '"' rest
  | '\'' :: rest => Quoted.readLine '\'' rest
  | _ =>
    let key := text.takeWhile isKeyChar
    if key.isEmpty then none else some (String.ofList key, text.dropWhile isKeyChar)

/-- Keys separated by points, at most `limit` of them, with blanks around each. -/
def readPath : (limit : Nat) → Reader (List String)
  | 0, _ => none
  | limit + 1, text => do
    let (key, rest) ← readKey (skipBlanks text)
    match skipBlanks rest with
    | '.' :: rest => do
      let (path, rest) ← readPath limit rest
      return (key :: path, rest)
    | rest => return ([key], rest)

/-- Nothing is nested deeper than this: neither keys nor arrays and inline tables. -/
def deepest : Nat := 79

def readScalar : Reader Value := fun text =>
  match text with
  | '"' :: rest => (Quoted.read '"' rest).map fun (text, rest) => (.string text, rest)
  | '\'' :: rest => (Quoted.read '\'' rest).map fun (text, rest) => (.string text, rest)
  | 't' :: 'r' :: 'u' :: 'e' :: rest => some (.boolean true, rest)
  | 'f' :: 'a' :: 'l' :: 's' :: 'e' :: rest => some (.boolean false, rest)
  | _ =>
    Time.read text <|> Number.special text <|> Number.float text <|> Number.integer text

/-- The elements of an array after its bracket or after a comma. A comma may follow the last. Each
element takes a character, so a `budget` of the text's length suffices. -/
def readElements (element : Reader Value) : (budget : Nat) → Reader (List Value)
  | 0, _ => none
  | budget + 1, text =>
    match skipFiller false text with
    | ']' :: rest => some ([], rest)
    | text => do
      let (value, rest) ← element text
      match skipFiller false rest with
      | ',' :: rest => do
        let (more, rest) ← readElements element budget rest
        return (value :: more, rest)
      | ']' :: rest => return ([value], rest)
      | _ => none

/-- A key with its value. -/
def readPair (value : Reader Value) : Reader (List String × Value) := fun text => do
  let (path, rest) ← readPath deepest text
  match rest with
  | '=' :: rest =>
    let (value, rest) ← value (skipBlanks rest)
    return ((path, value), rest)
  | _ => none

/-- The pairs of an inline table after its brace or after a comma. -/
def readPairs (value : Reader Value) : (budget : Nat) → Reader (List (List String × Value))
  | 0, _ => none
  | budget + 1, text => do
    let (pair, rest) ← readPair value text
    match skipBlanks rest with
    | ',' :: rest => do
      let (more, rest) ← readPairs value budget rest
      return (pair :: more, rest)
    | '\x7d' :: rest => return ([pair], rest)
    | _ => none

def fill (pairs : List (List String × Value)) (members : Members) : Option Members :=
  pairs.foldlM (fun members (path, value) => members.insert value path) members

/-- A value with at most `depth` arrays and inline tables inside each other. -/
def readValue : (depth : Nat) → Reader Value
  | 0, text => readScalar text
  | depth + 1, text =>
    match text with
    | '[' :: rest => do
      let (elements, rest) ← readElements (readValue depth) text.length rest
      return (.array elements, rest)
    | '\x7b' :: rest =>
      match skipBlanks rest with
      | '\x7d' :: rest => some (.table .inline [], rest)
      | rest => do
        let (pairs, rest) ← readPairs (readValue depth) text.length rest
        return (.table .inline (← fill pairs []), rest)
    | _ => readScalar text

inductive Heading
  | top
  | table (path : List String)
  | tables (path : List String)

structure Section where
  heading : Heading := .top
  pairs : List (List String × Value) := []

def readHeading : Reader Heading := fun text =>
  match text with
  | '[' :: '[' :: rest => do
    match ← readPath deepest rest with
    | (path, ']' :: ']' :: rest) => return (.tables path, rest)
    | _ => none
  | '[' :: rest => do
    match ← readPath deepest rest with
    | (path, ']' :: rest) => return (.table path, rest)
    | _ => none
  | _ => none

/-- Reads line by line into `current`, whose pairs are collected last first. Each line takes a
character, so a `budget` beyond the text's length suffices. -/
def readSections : (budget : Nat) → (current : Section) → List Char → Option (List Section)
  | 0, _, _ => none
  | budget + 1, current, text =>
    let text := skipBlanks text
    match text with
    | [] => some [{ current with pairs := current.pairs.reverse }]
    | '[' :: _ => do
      let (heading, rest) ← readHeading text
      let later ← readSections budget { heading } (← lineEnd rest)
      return { current with pairs := current.pairs.reverse } :: later
    | c :: rest =>
      if c == '#' || atLineFeed c rest then do
        readSections budget current (← lineEnd text)
      else do
        let (pair, rest) ← readPair (readValue deepest) text
        readSections budget { current with pairs := pair :: current.pairs } (← lineEnd rest)

def Section.addTo (members : Members) (part : Section) : Option Members :=
  match part.heading with
  | .top => fill part.pairs members
  | .table path => members.declare (fill part.pairs) path
  | .tables path => members.append (fill part.pairs) path

/-- The members of a document's outermost table. A byte order mark at the start is skipped. -/
def read (text : String) : Option Members := do
  let text := match text.toList with
    | '\ufeff' :: rest => rest
    | text => text
  (← readSections (text.length + 1) {} text).foldlM Section.addTo []

end RegisterCatalog.Toml
