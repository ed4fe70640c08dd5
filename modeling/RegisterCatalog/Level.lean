/-! The three levels of a register description: an address has fields, and a field has values. -/

namespace RegisterCatalog

inductive Level
  | address
  | field
  | value
  deriving DecidableEq

namespace Level

def all : List Level := [address, field, value]

/-- The number of levels above. -/
def depth : Level → Nat
  | address => 0
  | field => 1
  | value => 2

def ofDepth? : Nat → Option Level
  | 0 => some address
  | 1 => some field
  | 2 => some value
  | _ => none

/-- The number that marks the level inside a packed id. Zero marks nothing. -/
def tag (level : Level) : Nat := level.depth + 1

def name : Level → String
  | address => "address"
  | field => "field"
  | value => "value"

theorem ofDepth?_eq_some {depth : Nat} {level : Level} :
    ofDepth? depth = some level ↔ level.depth = depth := by
  constructor
  · unfold ofDepth?
    split <;> simp only [Option.some.injEq, reduceCtorEq, false_implies] <;> rintro rfl <;> rfl
  · rintro rfl
    cases level <;> rfl

theorem tag_lt (level : Level) : level.tag < 4 := by
  cases level <;> decide

theorem tag_inj {first second : Level} (same : first.tag = second.tag) : first = second := by
  cases first <;> cases second <;> first | rfl | cases same

end Level
end RegisterCatalog
