import RegisterCatalog.Text.Words

/-! Definitions in hardware headers: the lines `#define NAME BODY` and `#define NAME(a, b) BODY`.
The body is kept as text and never evaluated. -/

namespace RegisterCatalog.Chars

inductive CommentState
  | code
  | block
  deriving DecidableEq

/-- Drops comments. Outside of a comment the first opener wins. A block ends at the first `*/` after
its opener, and an open block or a `//` drops the rest. -/
def dropComments : CommentState → List Char → List Char
  | _, [] => []
  | .code, '/' :: '*' :: rest => dropComments .block rest
  | .code, '/' :: '/' :: _ => []
  | .code, c :: rest => c :: dropComments .code rest
  | .block, '*' :: '/' :: rest => dropComments .code rest
  | .block, _ :: rest => dropComments .block rest

/-- The text without comments, its words set apart by single spaces. -/
def cleanBody (body : List Char) : List Char :=
  [' '].intercalate (words (dropComments .code body))

/-- The text before and after the first character that satisfies `isCut`, without that character. -/
def cutAt (isCut : Char → Bool) (text : List Char) : Option (List Char × List Char) :=
  match text.dropWhile (!isCut ·) with
  | [] => none
  | _ :: after => some (text.takeWhile (!isCut ·), after)

/-- The name with its parameter list, and the text after it. A parameter list may contain blanks; it
then reaches to the closing parenthesis. -/
def splitName (text : List Char) : Option (List Char × List Char) :=
  match cutAt isBlank text with
  | none => none
  | some (name, body) =>
    if name.contains '(' && !name.contains ')' then cutAt (· == ')') text else some (name, body)

/-- The bare name, and the number of parameters after it. -/
def splitParameters (name : List Char) : List Char × Nat :=
  match cutAt (· == '(') name with
  | none => (name, 0)
  | some (key, parameters) => (key, parameters.count ',' + 1)

end RegisterCatalog.Chars

namespace RegisterCatalog

structure Definition where
  /-- The body as written. -/
  written : String
  /-- The body without comments. -/
  value : String
  parameters : Nat
  deriving DecidableEq

/-- The name and definition on a line. A definition without a body does not count. -/
def Definition.ofLine? (line : String) : Option (String × Definition) :=
  match "#define".toList.isPrefixOf? (Chars.trimStart line.toList) with
  | none => none
  | some rest =>
    if rest.head?.any Chars.isBlank then
      match Chars.splitName (Chars.trimStart rest) with
      | none => none
      | some (name, rest) =>
        let body := Chars.trim rest
        if body.isEmpty then none
        else
          let (key, parameters) := Chars.splitParameters name
          some (String.ofList key,
            ⟨String.ofList body, String.ofList (Chars.cleanBody body), parameters⟩)
    else none

end RegisterCatalog
