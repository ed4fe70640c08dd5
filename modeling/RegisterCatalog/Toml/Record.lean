import RegisterCatalog.Toml.Document

/-! Reading records from TOML values. A record is a table, or an array of its fields in order. -/

namespace RegisterCatalog.Toml

inductive Record
  | named (members : Members)
  | listed (elements : List Value)

namespace Value

def string? : Value → Option String
  | string text => some text
  | _ => none

def word32? : Value → Option Nat
  | integer number => if 0 ≤ number ∧ number < UInt32.size then some number.toNat else none
  | _ => none

def elements? : Value → Option (List Value)
  | array elements => some elements
  | tables rows => some (rows.map (table .declared))
  | _ => none

def strings? (value : Value) : Option (List String) := do
  (← value.elements?).mapM string?

/-- A time counts as a table without any member that could be asked for. -/
def record? : Value → Option Record
  | table _ members => some (.named members)
  | time => some (.named [])
  | value => value.elements?.map .listed

end Value

namespace Record

/-- The field with this name, or at this place. -/
def get? (record : Record) (name : String) (place : Nat) : Option Value :=
  match record with
  | named members => members.get? name
  | listed elements => elements[place]?

/-- Reads a field that must be there. -/
def required (record : Record) (name : String) (place : Nat) (read : Value → Option α) :
    Option α := do
  read (← record.get? name place)

/-- Reads a field that may be absent. It must still be right if it is there. -/
def optional (record : Record) (name : String) (place : Nat) (read : Value → Option α) :
    Option (Option α) :=
  match record.get? name place with
  | none => some none
  | some value => (read value).map some

/-- Reads a field that has a default. -/
def withDefault (record : Record) (name : String) (place : Nat) (read : Value → Option α)
    (default : α) : Option α :=
  (record.optional name place read).map (·.getD default)

end Record
end RegisterCatalog.Toml
