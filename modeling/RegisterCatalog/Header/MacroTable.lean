import Std.Data.TreeMap
import RegisterCatalog.Header.Definition

/-! Macro tables: what the headers of one device define. A definition whose body is the name of
another one refers to it, and such references can be followed. -/

namespace RegisterCatalog

structure MacroTable where
  definitions : Std.TreeMap String Definition := ∅

namespace MacroTable

def size (table : MacroTable) : Nat := table.definitions.size

def isEmpty (table : MacroTable) : Bool := table.definitions.isEmpty

def get? (table : MacroTable) (name : String) : Option Definition := table.definitions[name]?

def contains (table : MacroTable) (name : String) : Bool := (table.get? name).isSome

def addLine (table : MacroTable) (line : String) : MacroTable :=
  match Definition.ofLine? line with
  | none => table
  | some (name, definition) => { definitions := table.definitions.insert name definition }

/-- Adds the definitions in a header. A later definition of a name replaces an earlier one. -/
def addText (table : MacroTable) (header : String) : MacroTable :=
  (Text.lines header).foldl addLine table

/-- What can be done at a name with suffixes pending. -/
inductive Move
  /-- The name with the first suffix is defined. -/
  | extend (name : String) (definition : Definition) (pending : List String)
  /-- The body of the definition is another defined name. -/
  | redirect (name : String) (definition : Definition)
  /-- The definition refers to nothing. -/
  | settle (definition : Definition)
  /-- The name is not defined. -/
  | fail
  deriving DecidableEq

/-- What to do at a name that is not to be extended. A name that stands for itself is settled. -/
def moveAt (table : MacroTable) (name : String) : Move :=
  match table.get? name with
  | none => .fail
  | some definition =>
    if definition.value ≠ name ∧ table.contains definition.value then
      .redirect definition.value definition
    else .settle definition

/-- Extending a name goes before following its definition. -/
def move (table : MacroTable) (name : String) : List String → Move
  | [] => table.moveAt name
  | suffix :: pending =>
    match table.get? (name ++ suffix) with
    | some definition => .extend (name ++ suffix) definition pending
    | none => table.moveAt name

/-- Where a walk ends: the last name with its definition, and the greatest number of parameters met
on the way. -/
structure Destination where
  name : String
  definition : Definition
  parameters : Nat
  deriving DecidableEq

/-- A walk that does not end, or not soon enough: the names it went through. -/
structure Cycle where
  chain : List String
  deriving DecidableEq

def Cycle.message (cycle : Cycle) : String :=
  "macro indirection cycle: " ++ String.intercalate " -> " cycle.chain

/-- A walk goes through this many names at most. -/
def longestChain : Nat := 64

/-- Walks on from `name`, with at most `budget` moves. The names gone through are in `earlier`, the
last first; a reference back to one of them is a cycle. -/
def follow (table : MacroTable) (name : String) (earlier pending : List String)
    (parameters : Nat) : (budget : Nat) → Except Cycle (Option Destination)
  | 0 => .error ⟨(name :: earlier).reverse⟩
  | budget + 1 =>
    match table.move name pending with
    | .extend next definition pending =>
      table.follow next (name :: earlier) pending (max parameters definition.parameters) budget
    | .redirect next definition =>
      if next ∈ name :: earlier then .error ⟨(next :: name :: earlier).reverse⟩
      else
        table.follow next (name :: earlier) pending (max parameters definition.parameters) budget
    | .settle definition =>
      if pending.isEmpty then .ok (some ⟨name, definition, max parameters definition.parameters⟩)
      else .ok none
    | .fail => .ok none

/-- Follows the references from `name` and consumes the suffixes in order. There is no destination
if the walk ends at a name that is not defined or before the last suffix. -/
def resolve (table : MacroTable) (name : String) (suffixes : List String) :
    Except Cycle (Option Destination) :=
  table.follow name [] suffixes 0 longestChain

end MacroTable
end RegisterCatalog
