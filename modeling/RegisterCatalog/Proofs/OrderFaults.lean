import RegisterCatalog.Proofs.EntryIdentity
import RegisterCatalog.Proofs.NaturalOrder
import RegisterCatalog.Proofs.OpenEntries

/-! Faults about the order of siblings. Only the comparison of a name with the sibling before it finds them; words that
are read, numbers that are given out and directives that are applied have other faults. The two faults are told apart by
the comparison: equal names are a duplicate, and a name that is smaller is out of order. -/

namespace RegisterCatalog

/-- The faults that the comparison with the sibling before a line can find. -/
def Fault.AboutOrder : Fault → Prop
  | .duplicateName _ => True
  | .outOfOrder _ _ => True
  | _ => False

open Outcome

/-- A computation that never finds siblings in disorder. -/
abbrev OrderBlind (outcome : Except Fault α) : Prop := Fails (fun fault => ¬ fault.AboutOrder) outcome

namespace Directive

theorem readLimit_blind (word : String) : OrderBlind (readLimit word) := by
  unfold readLimit
  split
  · exact fails_ok _
  · exact fails_error not_false

theorem splitRule_blind (keyword separator rule : String) : OrderBlind (splitRule keyword separator rule) := by
  unfold splitRule
  split
  · split
    · exact fails_error not_false
    · exact fails_ok _
  · exact fails_error not_false

theorem readArrayRule_blind (rule limit : String) : OrderBlind (readArrayRule rule limit) := by
  unfold readArrayRule
  apply (readLimit_blind limit).bind
  intro limit
  split
  · exact (splitRule_blind _ _ _).bind fun _ => fails_ok _
  · exact (splitRule_blind _ _ _).bind fun _ => fails_ok _

theorem read_blind (keyword : Keyword) (argument : String) : OrderBlind (keyword.read argument) := by
  cases keyword with
  | domain | virtualImage | synonym | capability => exact fails_ok _
  | replaceString => exact (splitRule_blind _ _ _).bind fun _ => fails_ok _

theorem readBare_blind (word : String) : OrderBlind (readBare word) := by
  unfold readBare
  split
  · exact (readLimit_blind word).bind fun _ => fails_ok _
  · exact fails_error not_false

theorem readAll_blind (words : List String) : OrderBlind (readAll words) := by
  fun_induction readAll words with
  | case1 => exact fails_ok _
  | case2 rest ih => exact ih.bind fun _ => fails_ok _
  | case3 rule limit rest _ ih => exact (readArrayRule_blind rule limit).bind fun _ => ih.bind fun _ => fails_ok _
  | case4 => exact fails_error not_false
  | case5 _ _ _ keyword _ argument rest ih => exact (read_blind keyword argument).bind fun _ => ih.bind fun _ => fails_ok _
  | case6 => exact fails_error not_false
  | case7 word rest _ _ _ ih => exact (readBare_blind word).bind fun _ => ih.bind fun _ => fails_ok _

end Directive

namespace Entry

theorem nameOf_blind (level : Level) (word : String) : OrderBlind (nameOf level word) := by
  simp only [nameOf]
  generalize (if level = .address then word else dropUnderscore word) = name
  split
  · exact fails_error not_false
  · exact fails_ok _

theorem numberAfter_blind (limits : Limits) (level : Level) (previous? : Option Entry) :
    OrderBlind (numberAfter limits level previous?) := by
  cases previous? with
  | none | some previous =>
    simp only [numberAfter]
    split
    · exact fails_error not_false
    · exact fails_ok _

theorem checkVirtual_blind (settings : Settings) (entry : Entry) : OrderBlind (checkVirtual settings entry) := by
  unfold checkVirtual
  split
  · exact fails_error not_false
  · split
    · exact fails_error not_false
    · exact fails_ok _

theorem applyAllowed_blind (settings : Settings) (entry : Entry) (directive : Directive) :
    OrderBlind (applyAllowed settings entry directive) := by
  cases directive with
  | arrayLimit limit | replaceArray old new limit | replaceString old new | synonym name => exact fails_ok _
  | domain name =>
    simp only [applyAllowed]
    split
    · exact fails_error not_false
    · exact fails_ok _
  | virtualImage target =>
    apply (checkVirtual_blind settings entry).bind
    intro _
    split
    · exact fails_ok _
    · exact fails_error not_false
  | virtualExport => exact (checkVirtual_blind settings entry).bind fun _ => fails_ok _
  | replaceStride old stride limit =>
    simp only [applyAllowed]
    split
    · exact fails_error not_false
    · exact fails_ok _
  | capability name =>
    simp only [applyAllowed]
    split
    · exact fails_error not_false
    · split
      · exact fails_ok _
      · exact fails_error not_false

theorem apply_blind (settings : Settings) (entry : Entry) (directive : Directive) :
    OrderBlind (apply settings entry directive) := by
  unfold apply
  split
  · exact applyAllowed_blind settings entry directive
  · exact fails_error not_false

theorem checkOrder_some (previous : Entry) (name : String) :
    checkOrder (some previous) name =
      match Text.naturalCompare previous.name name with
      | .lt => .ok ()
      | .eq => .error (.duplicateName name)
      | .gt => .error (.outOfOrder previous.name name) := by
  have swapped : Text.naturalCompare name previous.name = (Text.naturalCompare previous.name name).swap :=
    Std.OrientedCmp.eq_swap
  have equal : Text.naturalCompare previous.name name = .eq ↔ previous.name = name :=
    Std.LawfulEqCmp.compare_eq_iff_eq
  unfold checkOrder
  cases compared : Text.naturalCompare previous.name name with
  | lt =>
    have different : previous.name ≠ name := fun same => by simp [equal.mpr same] at compared
    simp [different, swapped, compared]
  | eq => simp [equal.mp compared]
  | gt =>
    have different : previous.name ≠ name := fun same => by simp [equal.mpr same] at compared
    simp [different, swapped, compared]

theorem checkOrder_eq_error {previous : Entry} {name : String} {fault : Fault} :
    checkOrder (some previous) name = .error fault ↔
      name = previous.name ∧ fault = .duplicateName name ∨
        Text.naturalCompare name previous.name = .lt ∧ fault = .outOfOrder previous.name name := by
  have equal : Text.naturalCompare previous.name name = .eq ↔ name = previous.name :=
    Std.LawfulEqCmp.compare_eq_iff_eq.trans eq_comm
  have less : Text.naturalCompare name previous.name = .lt ↔ Text.naturalCompare previous.name name = .gt :=
    Std.OrientedCmp.gt_iff_lt.symm
  rw [checkOrder_some, ← equal, less]
  cases Text.naturalCompare previous.name name <;> simp [eq_comm]

theorem ofWords_after {settings : Settings} {layout : Layout} {line : Nat} {level : Level} {above? : Option Above}
    {previous entry : Entry} {word : String} {rest : List String}
    (done : ofWords settings layout line level above? (some previous) word rest = .ok entry) :
    Text.naturalCompare previous.name entry.name = .lt := by
  obtain ⟨declared, first, kept⟩ := ofWords_eq_ok done
  have ordered := (declare_name first).2
  rw [checkOrder_some, ← kept.name] at ordered
  split at ordered
  next less => exact less
  next => cases ordered
  next => cases ordered

section OrderFaults

variable {settings : Settings} {layout : Layout} {line : Nat} {level : Level} {above? : Option Above}
  {previous? : Option Entry} {word : String} {rest : List String} {fault : Fault}

theorem declare_order_fault (about : fault.AboutOrder) :
    declare settings layout line level above? previous? word = .error fault ↔
      ∃ name, nameOf level word = .ok name ∧ checkOrder previous? name = .error fault := by
  constructor
  · intro failed
    rcases bind_eq_error.mp failed with unnamed | ⟨name, named, failed⟩
    · exact absurd about (nameOf_blind level word fault unnamed)
    rcases bind_eq_error.mp failed with disorder | ⟨_, _, failed⟩
    · exact ⟨name, named, disorder⟩
    rcases bind_eq_error.mp failed with overflow | ⟨number, _, failed⟩
    · exact absurd about (numberAfter_blind settings.limits level previous? fault overflow)
    · cases above? with
      | none =>
        dsimp only at failed
        split at failed <;> cases failed
        cases about
      | some above => cases failed
  · rintro ⟨name, named, disorder⟩
    exact bind_eq_error.mpr (.inr ⟨name, named, bind_eq_error.mpr (.inl disorder)⟩)

theorem ofWords_order_fault (about : fault.AboutOrder) :
    ofWords settings layout line level above? previous? word rest = .error fault ↔
      ∃ name, nameOf level word = .ok name ∧ checkOrder previous? name = .error fault := by
  rw [← declare_order_fault about]
  constructor
  · intro failed
    rcases bind_eq_error.mp failed with here | ⟨entry, _, failed⟩
    · exact here
    rcases bind_eq_error.mp failed with unread | ⟨directives, _, failed⟩
    · exact absurd about (Directive.readAll_blind rest fault unread)
    · obtain ⟨_, directive, _, state, _, _, refused⟩ := foldlM_eq_error failed
      exact absurd about (apply_blind settings state directive fault refused)
  · exact fun failed => bind_eq_error.mpr (.inl failed)

end OrderFaults
end Entry

theorem Outline.place_blind {widthOf : α → Nat} (opened : List α) (width : Nat) :
    OrderBlind (place widthOf opened width) := by
  unfold place
  split
  · exact fails_ok _
  · split
    · exact fails_ok _
    · split
      · exact fails_error not_false
      · split
        · exact fails_ok _
        · exact fails_error not_false

end RegisterCatalog
