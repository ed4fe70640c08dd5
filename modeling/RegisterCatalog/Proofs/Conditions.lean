import Mathlib.Data.List.Basic
import RegisterCatalog.Resolution.Target

/-! Conditions as the preprocessor reads them. A condition is a text; it is cut into tokens and evaluated
over the names that are defined. Guards are written so that they come back as they were meant. -/

namespace RegisterCatalog.Condition

inductive Token
  | word (text : List Char)
  | opening
  | closing
  | not
  | and
  | or
  deriving DecidableEq

def isWordChar (c : Char) : Bool := c.isAlphanum || c == '_'

/-- A C identifier: letters, digits and underscores, no digit first. -/
def isIdentifier : List Char → Bool
  | [] => false
  | c :: rest => !c.isDigit && (c :: rest).all isWordChar

/-- Puts a character before the tokens; it joins a word that starts right after it. -/
def addChar (c : Char) (joins : Bool) : List Token → List Token
  | .word text :: later => if joins then .word (c :: text) :: later else .word [c] :: .word text :: later
  | tokens => .word [c] :: tokens

def lex : List Char → Option (List Token)
  | [] => some []
  | '(' :: rest => (lex rest).map (.opening :: ·)
  | ')' :: rest => (lex rest).map (.closing :: ·)
  | '!' :: rest => (lex rest).map (.not :: ·)
  | '&' :: '&' :: rest => (lex rest).map (.and :: ·)
  | '|' :: '|' :: rest => (lex rest).map (.or :: ·)
  | ' ' :: rest => lex rest
  | c :: rest => if isWordChar c then (lex rest).map (addChar c (rest.head?.any isWordChar)) else none

def keyword : List Char := "defined".toList

/-- A test for one name, perhaps negated. -/
def literal (defined : String → Bool) : List Token → Option Bool
  | .not :: rest => (literal defined rest).map (!·)
  | [.word test, .opening, .word name, .closing] =>
    if test = keyword ∧ isIdentifier name then some (defined (String.ofList name)) else none
  | _ => none

def conjunction (defined : String → Bool) (tokens : List Token) : Option Bool :=
  ((tokens.splitOn .and).mapM (literal defined)).map fun parts => parts.all id

def disjunction (defined : String → Bool) (tokens : List Token) : Option Bool :=
  ((tokens.splitOn .or).mapM (conjunction defined)).map fun parts => parts.any id

/-- The truth of a condition; nothing if the text is none. -/
def evaluate (defined : String → Bool) (condition : String) : Option Bool :=
  lex condition.toList >>= disjunction defined

theorem isWordChar_of_identifier {name : List Char} (identifier : isIdentifier name) : ∀ c ∈ name, isWordChar c := by
  cases name with
  | nil => simp
  | cons first rest =>
    simp only [isIdentifier, Bool.and_eq_true, List.all_eq_true] at identifier
    exact identifier.2

theorem isIdentifier_append {name rest : List Char} (identifier : isIdentifier name) (word : rest.all isWordChar) :
    isIdentifier (name ++ rest) := by
  cases name with
  | nil => simp [isIdentifier] at identifier
  | cons first others =>
    simp only [isIdentifier, List.cons_append, Bool.and_eq_true] at identifier ⊢
    refine ⟨identifier.1, ?_⟩
    rw [← List.cons_append, List.all_append, identifier.2, word]
    rfl

theorem lex_wordChar {c : Char} (word : isWordChar c) (rest : List Char) :
    lex (c :: rest) = (lex rest).map (addChar c (rest.head?.any isWordChar)) := by
  have others : c ≠ '(' ∧ c ≠ ')' ∧ c ≠ '!' ∧ c ≠ '&' ∧ c ≠ '|' ∧ c ≠ ' ' := by
    refine ⟨?_, ?_, ?_, ?_, ?_, ?_⟩ <;> rintro rfl <;> exact absurd word (by decide)
  rw [lex, if_pos word]
  all_goals simp [others]

/-- A word ends where no word character follows. -/
theorem lex_word {name rest : List Char} (nonempty : name ≠ []) (word : ∀ c ∈ name, isWordChar c)
    (stop : rest.head?.any isWordChar = false) : lex (name ++ rest) = (lex rest).map (.word name :: ·) := by
  induction name with
  | nil => exact absurd rfl nonempty
  | cons c others ih =>
    rw [List.forall_mem_cons] at word
    rw [List.cons_append, lex_wordChar word.1]
    cases others with
    | nil =>
      have alone : addChar c false = (Token.word [c] :: ·) := by
        funext tokens
        unfold addChar
        split <;> simp
      rw [List.nil_append, stop, alone]
    | cons next later =>
      have joins : ((next :: later) ++ rest).head?.any isWordChar = true := by simp [word.2 next]
      rw [joins, ih (by simp) word.2, Option.map_map]
      rfl

def test (name : List Char) : List Token := [.word keyword, .opening, .word name, .closing]

theorem lex_test {name : List Char} (identifier : isIdentifier name) (rest : List Char) :
    lex (keyword ++ '(' :: (name ++ ')' :: rest)) = (lex rest).map (test name ++ ·) := by
  have nonempty : name ≠ [] := by
    rintro rfl
    simp [isIdentifier] at identifier
  have word : ∀ c ∈ keyword, isWordChar c := List.all_eq_true.mp (by decide)
  rw [lex_word (by decide) word (by rfl), lex, lex_word nonempty (isWordChar_of_identifier identifier) (by rfl), lex]
  simp [Option.map_map, Function.comp_def, test]

theorem literal_test {name : String} (defined : String → Bool) (identifier : isIdentifier name.toList) :
    literal defined (test name.toList) = some (defined name) := by
  simp [literal, test, identifier]

theorem splitOn_single [DecidableEq α] {separator : α} {tokens : List α} (free : separator ∉ tokens) :
    tokens.splitOn separator = [tokens] := by
  have split : ([separator].intercalate [tokens]).splitOn separator = [tokens] :=
    List.splitOn_intercalate separator (by simpa using free) (by simp)
  rwa [List.intercalate_singleton] at split

theorem conjunction_single (defined : String → Bool) {tokens : List Token} (free : .and ∉ tokens) :
    conjunction defined tokens = literal defined tokens := by
  rw [conjunction, splitOn_single free]
  cases value : literal defined tokens <;> simp [value]

theorem conjunction_pair (defined : String → Bool) {left right : List Token} (first : .and ∉ left) (second : .and ∉ right) :
    conjunction defined (left ++ .and :: right) =
      (literal defined left).bind fun one => (literal defined right).map fun two => one && two := by
  rw [conjunction, List.splitOn_append_cons_self, splitOn_single first, splitOn_single second]
  cases one : literal defined left <;> cases two : literal defined right <;> simp [one, two]

theorem disjunction_single (defined : String → Bool) {tokens : List Token} (free : .or ∉ tokens) :
    disjunction defined tokens = conjunction defined tokens := by
  rw [disjunction, splitOn_single free]
  cases value : conjunction defined tokens <;> simp [value]

end RegisterCatalog.Condition

namespace RegisterCatalog.Guard
open Condition

variable {name : String}

private theorem keyword_eq : keyword = "defined".toList := rfl

private theorem toString_text (text : String) : toString text = text := rfl

theorem isIdentifier_sizeMacro (identifier : isIdentifier name.toList) : isIdentifier (sizeMacro name 1).toList := by
  have text : (sizeMacro name 1).toList = name.toList ++ "__SIZE_1".toList := by
    have digit : Nat.toDigits 10 1 = ['1'] := rfl
    simp [sizeMacro, toString_text, digit]
  rw [text]
  exact isIdentifier_append identifier (by decide)

theorem toList_present (name : String) : (present name).text.toList = keyword ++ '(' :: (name.toList ++ [')']) := by
  simp [Guard.text, keyword_eq, toString_text]

theorem lex_present (identifier : isIdentifier name.toList) : lex (present name).text.toList = some (test name.toList) := by
  rw [toList_present, lex_test identifier, lex]
  simp

theorem lex_scalar (identifier : isIdentifier name.toList) :
    lex (scalar name).text.toList = some (test name.toList ++ .and :: .not :: test (sizeMacro name 1).toList) := by
  have text : (scalar name).text.toList = keyword ++ '(' :: (name.toList ++ ')' :: ' ' :: '&' :: '&' :: ' ' :: '!' ::
      (keyword ++ '(' :: ((sizeMacro name 1).toList ++ [')']))) := by
    simp [Guard.text, keyword_eq, toString_text]
  rw [text, lex_test identifier, lex, lex, lex, lex, lex_test (isIdentifier_sizeMacro identifier), lex]
  simp

theorem lex_array (identifier : isIdentifier name.toList) :
    lex (array name).text.toList = some (test name.toList ++ .and :: test (sizeMacro name 1).toList) := by
  have text : (array name).text.toList = keyword ++ '(' :: (name.toList ++ ')' :: ' ' :: '&' :: '&' :: ' ' ::
      (keyword ++ '(' :: ((sizeMacro name 1).toList ++ [')']))) := by
    simp [Guard.text, keyword_eq, toString_text]
  rw [text, lex_test identifier, lex, lex, lex, lex_test (isIdentifier_sizeMacro identifier), lex]
  simp

def holds (defined : String → Bool) : Guard → Option Bool
  | present name => some (defined name)
  | scalar name => some (defined name && !defined (sizeMacro name 1))
  | array name => some (defined name && defined (sizeMacro name 1))
  | written condition => evaluate defined condition

def name? : Guard → Option String
  | present name => some name
  | scalar name => some name
  | array name => some name
  | written _ => none

theorem evaluate_text (defined : String → Bool) {guard : Guard} (identifiers : ∀ name ∈ guard.name?, isIdentifier name.toList) :
    evaluate defined guard.text = guard.holds defined := by
  cases guard with
  | written condition => rfl
  | present name =>
    have identifier := identifiers name rfl
    simp only [evaluate, lex_present identifier, Option.bind_eq_bind, Option.bind_some]
    rw [disjunction_single _ (by simp [test]), conjunction_single _ (by simp [test]), literal_test _ identifier]
    rfl
  | scalar name =>
    have identifier := identifiers name rfl
    simp only [evaluate, lex_scalar identifier, Option.bind_eq_bind, Option.bind_some]
    rw [disjunction_single _ (by simp [test]), conjunction_pair _ (by simp [test]) (by simp [test]), literal,
      literal_test _ identifier, literal_test _ (isIdentifier_sizeMacro identifier)]
    rfl
  | array name =>
    have identifier := identifiers name rfl
    simp only [evaluate, lex_array identifier, Option.bind_eq_bind, Option.bind_some]
    rw [disjunction_single _ (by simp [test]), conjunction_pair _ (by simp [test]) (by simp [test]),
      literal_test _ identifier, literal_test _ (isIdentifier_sizeMacro identifier)]
    rfl

end RegisterCatalog.Guard

namespace RegisterCatalog.Condition

def anyDefined (names : List String) : String :=
  String.intercalate " || " (names.map fun name => (Guard.present name).text)

theorem lex_anyDefined {first : String} {rest : List String} (identifiers : ∀ name ∈ first :: rest, isIdentifier name.toList) :
    lex (anyDefined (first :: rest)).toList =
      some ([Token.or].intercalate ((first :: rest).map fun name => test name.toList)) := by
  induction rest generalizing first with
  | nil => simpa [anyDefined] using Guard.lex_present (identifiers first List.mem_cons_self)
  | cons second later ih =>
    rw [List.forall_mem_cons] at identifiers
    have split : anyDefined (first :: second :: later) =
        (Guard.present first).text ++ " || " ++ anyDefined (second :: later) := String.intercalate_cons_cons
    have text : (anyDefined (first :: second :: later)).toList = keyword ++ '(' :: (first.toList ++
        ')' :: ' ' :: '|' :: '|' :: ' ' :: (anyDefined (second :: later)).toList) := by
      rw [split, String.toList_append, String.toList_append, Guard.toList_present]
      simp only [List.append_assoc, List.cons_append, List.nil_append]
      rfl
    rw [text, lex_test identifiers.1, lex, lex, lex, ih identifiers.2]
    simp

theorem conjunction_test (defined : String → Bool) {name : String} (identifier : isIdentifier name.toList) :
    conjunction defined (test name.toList) = some (defined name) := by
  rw [conjunction_single _ (by simp [test]), literal_test _ identifier]

theorem mapM_conjunction (defined : String → Bool) {names : List String} (identifiers : ∀ name ∈ names, isIdentifier name.toList) :
    (names.map fun name => test name.toList).mapM (conjunction defined) = some (names.map defined) := by
  induction names with
  | nil => rfl
  | cons first rest ih =>
    rw [List.forall_mem_cons] at identifiers
    simp [conjunction_test defined identifiers.1, ih identifiers.2]

theorem evaluate_anyDefined (defined : String → Bool) {names : List String} (nonempty : names ≠ [])
    (identifiers : ∀ name ∈ names, isIdentifier name.toList) :
    evaluate defined (anyDefined names) = some (names.any defined) := by
  obtain ⟨first, rest, rfl⟩ := List.exists_cons_of_ne_nil nonempty
  have free : ∀ part ∈ (first :: rest).map fun name => test name.toList, Token.or ∉ part := by
    simp [test]
  simp only [evaluate, lex_anyDefined identifiers, Option.bind_eq_bind, Option.bind_some, disjunction]
  rw [List.splitOn_intercalate Token.or free (by simp), mapM_conjunction defined identifiers]
  simp

end RegisterCatalog.Condition
