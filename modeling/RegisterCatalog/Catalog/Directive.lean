import RegisterCatalog.Catalog.Entry
import RegisterCatalog.Catalog.Fault
import RegisterCatalog.Text.Decimal

/-! Directives: the words after the name on a line. A directive is a keyword with its arguments, or
a bare array limit. -/

namespace RegisterCatalog

inductive Directive
  | arrayLimit (limit : Nat)
  | domain (name : String)
  | virtualImage (target : String)
  | virtualExport
  | replaceArray (old new : String) (limit : Nat)
  | replaceStride (old stride : String) (limit : Nat)
  | replaceString (old new : String)
  | synonym (name : String)
  | capability (name : String)
  deriving DecidableEq

namespace Directive

/-- The keywords that take one argument. -/
inductive Keyword
  | domain
  | virtualImage
  | synonym
  | capability
  | replaceString
  deriving DecidableEq

namespace Keyword

def all : List Keyword := [domain, virtualImage, synonym, capability, replaceString]

def word : Keyword → String
  | domain => "-domain"
  | virtualImage => "-virtual_mirror"
  | synonym => "-alias"
  | capability => "-cap"
  | replaceString => "-replace_string"

def ofWord? (word : String) : Option Keyword :=
  all.find? fun keyword => keyword.word = word

theorem ofWord?_eq_some {word : String} {keyword : Keyword} :
    ofWord? word = some keyword ↔ keyword.word = word := by
  constructor
  · intro found
    simpa using List.find?_some found
  · rintro rfl
    cases keyword <;> decide

end Keyword

/-- The keyword that takes no argument. -/
def exportWord : String := "-virtual_export"

/-- The keyword that takes a rule and a limit. -/
def arrayWord : String := "-replace_array"

/-- How messages call the directive. -/
def label : Directive → String
  | arrayLimit _ => "array limit"
  | domain _ => Keyword.domain.word
  | virtualImage _ => Keyword.virtualImage.word
  | virtualExport => exportWord
  | replaceArray .. => arrayWord
  | replaceStride .. => arrayWord
  | replaceString .. => Keyword.replaceString.word
  | synonym _ => Keyword.synonym.word
  | capability _ => Keyword.capability.word

/-- Fields and values take their domain, their virtual register and the substitutions from their
address. -/
def allowedOn : Directive → Level → Bool
  | arrayLimit _, _ => true
  | synonym _, _ => true
  | capability _, _ => true
  | _, level => level == .address

def readLimit (word : String) : Except Fault Nat :=
  match Text.word32? word with
  | some (limit + 1) => .ok (limit + 1)
  | _ => .error (.badArrayLimit word)

/-- Cuts a rule at the first separator. The part before it must not be empty. -/
def splitRule (keyword separator rule : String) : Except Fault (String × String) :=
  match Text.splitOnce separator rule with
  | some (old, new) =>
    if old.isEmpty then .error (.malformedArgument keyword rule) else .ok (old, new)
  | none => .error (.malformedArgument keyword rule)

/-- An array rule is `OLD*=STRIDE` if `*=` occurs in it, else `OLD=NEW`. -/
def readArrayRule (rule limit : String) : Except Fault Directive := do
  let limit ← readLimit limit
  if Text.contains "*=" rule then
    let (old, stride) ← splitRule arrayWord "*=" rule
    return .replaceStride old stride limit
  else
    let (old, new) ← splitRule arrayWord "=" rule
    return .replaceArray old new limit

def Keyword.read : Keyword → String → Except Fault Directive
  | domain, argument => .ok (.domain argument)
  | virtualImage, argument => .ok (.virtualImage argument)
  | synonym, argument => .ok (.synonym argument)
  | capability, argument => .ok (.capability argument)
  | replaceString, argument => do
    let (old, new) ← splitRule replaceString.word "=" argument
    return .replaceString old new

/-- A word that is no keyword has to be an array limit. -/
def readBare (word : String) : Except Fault Directive :=
  if word.toList.head?.any Char.isDigit then arrayLimit <$> readLimit word
  else .error (.invalidDirective word)

/-- Reads the words from left to right and stops at the first fault. -/
def readAll : List String → Except Fault (List Directive)
  | [] => .ok []
  | word :: rest =>
    if word = exportWord then do
      return virtualExport :: (← readAll rest)
    else if word = arrayWord then
      match rest with
      | rule :: limit :: rest => do return (← readArrayRule rule limit) :: (← readAll rest)
      | _ => .error (.missingArgument word)
    else match Keyword.ofWord? word with
      | some keyword =>
        match rest with
        | argument :: rest => do return (← keyword.read argument) :: (← readAll rest)
        | [] => .error (.missingArgument word)
      | none => do return (← readBare word) :: (← readAll rest)

end Directive
end RegisterCatalog
