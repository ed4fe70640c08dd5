import RegisterCatalog.Catalog.Reader

/-! Allow lists: the symbols that scripts may use. A list has one symbol, or one start of symbols
followed by `*`, on a line, in natural order. -/

namespace RegisterCatalog

inductive AllowPattern
  | exactly (symbol : String)
  | startingWith (start : String)
  deriving DecidableEq

namespace AllowPattern

def ofWord (word : String) : AllowPattern :=
  match Text.dropEnd? "*" word with
  | some start => startingWith start
  | none => exactly word

def allows : AllowPattern → String → Bool
  | exactly symbol, other => symbol == other
  | startingWith start, symbol => Text.startsWith start symbol

/-- The pattern as it is written. -/
def word : AllowPattern → String
  | exactly symbol => symbol
  | startingWith start => start ++ "*"

end AllowPattern

structure AllowList where
  patterns : List AllowPattern := []
  deriving DecidableEq

namespace AllowList

/-- A word must stand after the word before it. -/
def checkOrder (previous? : Option String) (word : String) : Except Fault Unit :=
  match previous? with
  | none => .ok ()
  | some previous =>
    match Text.naturalCompare word previous with
    | .gt => .ok ()
    | .eq => .error (.duplicateName word)
    | .lt => .error (.outOfOrder previous word)

/-- The word on a line, if there is one. -/
def readLine (previous? : Option String) (line : String) : Except Fault (Option String) :=
  match Text.words (Text.stripComment line) with
  | [] => .ok none
  | _ :: extra :: _ => .error (.malformedArgument "allow-list" extra)
  | [word] => do
    checkOrder previous? word
    return some word

def readWords (previous? : Option String) : List SourceLine → Except LineFault (List String)
  | [] => .ok []
  | line :: rest => do
    match ← (readLine previous? line.text).mapError (⟨line, ·⟩) with
    | none => readWords previous? rest
    | some word => return word :: (← readWords (some word) rest)

def read (text : String) : Except LineFault AllowList := do
  return { patterns := (← readWords none (sourceLines text)).map AllowPattern.ofWord }

def size (list : AllowList) : Nat := list.patterns.length

def allows (list : AllowList) (symbol : String) : Bool :=
  list.patterns.any (·.allows symbol)

/-- The patterns that no symbol of the catalog matches, as written. -/
def unmatched (list : AllowList) (catalog : Catalog) : List String :=
  (list.patterns.filter fun pattern =>
    !catalog.toList.any fun entry => pattern.allows entry.symbol).map AllowPattern.word

end AllowList
end RegisterCatalog
