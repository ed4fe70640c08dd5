/-! Values of TOML documents, and how tables of a document grow. -/

namespace RegisterCatalog.Toml

/-- How a table came into being. This decides what may still be added to it. -/
inductive Origin
  /-- Written in braces; it is complete. -/
  | inline
  /-- Named by a header of its own. -/
  | declared
  /-- Named in the header of another table only. -/
  | implied
  /-- Named in a dotted key. -/
  | dotted
  deriving DecidableEq

/-- Floats and times are told apart from the other values, but nothing asks for their content. -/
inductive Value
  | string (text : String)
  | integer (number : Int)
  | float
  | boolean (truth : Bool)
  | time
  | array (elements : List Value)
  | table (origin : Origin) (members : List (String × Value))
  /-- An array of tables with headers of their own. -/
  | tables (rows : List (List (String × Value)))

abbrev Members := List (String × Value)

namespace Members

def get? (members : Members) (key : String) : Option Value := members.lookup key

/-- Puts a value in the place of the one that `key` has. -/
def set (members : Members) (key : String) (value : Value) : Members :=
  members.map fun member => if member.1 == key then (key, value) else member

/-- Changes the last of several rows. -/
def updateLast (update : Members → Option Members) : List Members → Option (List Members)
  | [] => none
  | [row] => (update row).map ([·])
  | row :: rest => (updateLast update rest).map (row :: ·)

/-- Adds a value under a dotted key. No key is given twice. The tables on the way must not have a
header, and the last of them must have been named in a dotted key only. -/
def insert (value : Value) : (path : List String) → Members → Option Members
  | [], _ => none
  | [key], members =>
    if (members.get? key).isSome then none else some (members ++ [(key, value)])
  | key :: path, members =>
    match members.get? key with
    | none => (insert value path []).map fun inner => members ++ [(key, .table .dotted inner)]
    | some (.table origin inner) =>
      if origin = .dotted ∨ (origin = .implied ∧ path.length ≠ 1) then
        (insert value path inner).map fun inner => members.set key (.table origin inner)
      else none
    | some (.tables rows) =>
      if path.length = 1 then none
      else (updateLast (insert value path) rows).map fun rows => members.set key (.tables rows)
    | some _ => none

/-- Changes the members at the end of a header's path. Tables that are missing on the way are
implied, and of an array of tables the last one is meant. -/
def descend (update : String → Members → Option Members) :
    (path : List String) → Members → Option Members
  | [], _ => none
  | [key], members => update key members
  | key :: path, members =>
    match members.get? key with
    | none => (descend update path []).map fun inner => members ++ [(key, .table .implied inner)]
    | some (.table .inline _) => none
    | some (.table origin inner) =>
      (descend update path inner).map fun inner => members.set key (.table origin inner)
    | some (.tables rows) =>
      (updateLast (descend update path) rows).map fun rows => members.set key (.tables rows)
    | some _ => none

/-- The effect of a header `[path]`. A table is declared once, and not after it was dotted. -/
def declare (fill : Members → Option Members) (path : List String) (members : Members) :
    Option Members :=
  members.descend (fun key members =>
    match members.get? key with
    | none => (fill []).map fun inner => members ++ [(key, .table .declared inner)]
    | some (.table .implied inner) =>
      (fill inner).map fun inner => members.set key (.table .declared inner)
    | some _ => none) path

/-- The effect of a header `[[path]]`. -/
def append (fill : Members → Option Members) (path : List String) (members : Members) :
    Option Members :=
  members.descend (fun key members =>
    match members.get? key with
    | none => (fill []).map fun row => members ++ [(key, .tables [row])]
    | some (.tables rows) => (fill []).map fun row => members.set key (.tables (rows ++ [row]))
    | some _ => none) path

end Members
end RegisterCatalog.Toml
