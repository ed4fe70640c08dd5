/-! Quoted strings of TOML, read by an automaton that looks at one character at a time. -/

namespace RegisterCatalog.Toml

def hexDigit? (c : Char) : Option Nat :=
  if c.isDigit then some (c.toNat - 48)
  else if 'a' ≤ c && c ≤ 'f' then some (c.toNat - 87)
  else if 'A' ≤ c && c ≤ 'F' then some (c.toNat - 55)
  else none

def isBlank (c : Char) : Bool := c == ' ' || c == '\t'

/-- Whether a character may stand in comments and strings. Control characters other than the tab may
not. -/
def isTextChar (c : Char) : Bool :=
  c == '\t' || (' ' ≤ c && c ≤ '~') || 0x80 ≤ c.toNat

/-- A carriage return only counts together with the line feed after it. -/
def atLineFeed (c : Char) (rest : List Char) : Bool :=
  c == '\n' || (c == '\r' && rest.head? == some '\n')

namespace Quoted

/-- The four kinds of strings: double quotes allow escapes, and three quotes allow several lines. -/
structure Style where
  quote : Char
  lines : Bool

def Style.escapes (style : Style) : Bool := style.quote == '"'

inductive Mode
  /-- In the text, after this many quotes that may belong to the end. -/
  | plain (quotes : Nat)
  /-- After a backslash. -/
  | escape
  /-- In a code point, with digits left to read. -/
  | code (left number : Nat)
  /-- After a backslash and a blank, which only a line end may follow. -/
  | lineEnd
  /-- In the white space after an escaped line end. -/
  | skip

inductive Step
  | continue (read : List Char) (mode : Mode)
  /-- The string ends, and this many more quotes are part of its end. -/
  | close (read : List Char) (quotes : Nat)
  | refuse

/-- The third quote in a row ends a string of several lines, but up to two more belong to it. -/
def plainStep (style : Style) (quotes : Nat) (c : Char) (rest : List Char) : Step :=
  if c == style.quote then
    if !style.lines then .close [] 0
    else if quotes < 2 then .continue [] (.plain (quotes + 1))
    else
      let extra := (rest.take 2).takeWhile (· == style.quote)
      .close extra extra.length
  else
    let pending := List.replicate quotes style.quote
    if c == '\\' && style.escapes then .continue pending .escape
    else if isTextChar c then .continue (pending ++ [c]) (.plain 0)
    else if style.lines && c == '\n' then .continue (pending ++ [c]) (.plain 0)
    else if style.lines && atLineFeed c rest then .continue pending (.plain 0)
    else .refuse

def simpleEscape? : Char → Option Char
  | 'b' => some '\x08'
  | 't' => some '\t'
  | 'n' => some '\n'
  | 'f' => some '\x0c'
  | 'r' => some '\r'
  | '"' => some '"'
  | '\\' => some '\\'
  | _ => none

def escapeStep (style : Style) (c : Char) (rest : List Char) : Step :=
  match simpleEscape? c with
  | some meant => .continue [meant] (.plain 0)
  | none =>
    if c == 'u' then .continue [] (.code 4 0)
    else if c == 'U' then .continue [] (.code 8 0)
    else if style.lines && isBlank c then .continue [] .lineEnd
    else if style.lines && atLineFeed c rest then .continue [] .skip
    else .refuse

/-- Code points of surrogates do not denote characters. -/
def isScalar (number : Nat) : Bool :=
  number < 0xD800 || (0xE000 ≤ number && number < 0x110000)

def codeStep (left number : Nat) (c : Char) : Step :=
  match hexDigit? c with
  | none => .refuse
  | some digit =>
    let number := number * 16 + digit
    if left ≠ 1 then .continue [] (.code (left - 1) number)
    else if isScalar number then .continue [Char.ofNat number] (.plain 0)
    else .refuse

def step (style : Style) : Mode → Char → List Char → Step
  | .plain quotes, c, rest => plainStep style quotes c rest
  | .escape, c, rest => escapeStep style c rest
  | .code left number, c, _ => codeStep left number c
  | .lineEnd, c, rest =>
    if isBlank c then .continue [] .lineEnd
    else if atLineFeed c rest then .continue [] .skip
    else .refuse
  | .skip, c, rest =>
    if isBlank c || atLineFeed c rest then .continue [] .skip else plainStep style 0 c rest

/-- The text up to the end of the string, and what follows the string. -/
def run (style : Style) : Mode → List Char → Option (List Char × List Char)
  | _, [] => none
  | mode, c :: rest =>
    match step style mode c rest with
    | .continue read mode => (run style mode rest).map fun (text, after) => (read ++ text, after)
    | .close read quotes => some (read, rest.drop quotes)
    | .refuse => none

/-- A string on one line, given what follows its first quote. -/
def readLine (quote : Char) (text : List Char) : Option (String × List Char) :=
  (run ⟨quote, false⟩ (.plain 0) text).map fun (text, after) => (String.ofList text, after)

/-- The line end directly after the opening quotes is not part of the string. -/
def dropLineEnd : List Char → List Char
  | '\n' :: rest => rest
  | '\r' :: '\n' :: rest => rest
  | text => text

/-- A string of either kind, given what follows its first quote. -/
def read (quote : Char) (text : List Char) : Option (String × List Char) :=
  match [quote, quote].isPrefixOf? text with
  | none => readLine quote text
  | some rest =>
    (run ⟨quote, true⟩ (.plain 0) (dropLineEnd rest)).map fun (text, after) =>
      (String.ofList text, after)

end Quoted
end RegisterCatalog.Toml
