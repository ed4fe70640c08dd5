import RegisterCatalog.Proofs.Outcome
import RegisterCatalog.Resolution.Target

/-! What the targets of a variant are made of. A size has nothing to do with the other targets. For each tuple of
indices the names of the variant are looked up one by one, and what they contribute is sorted into the privilege and
the element of the tuple. -/

namespace RegisterCatalog
open Outcome

theorem Target.eq_of_mem_ofAlternatives {slot : Slot} {alternatives : List Alternative} {target : Target}
    (member : target ∈ Target.ofAlternatives slot alternatives) : target = ⟨slot, alternatives⟩ := by
  unfold Target.ofAlternatives at member
  split at member
  · cases member
  · exact List.mem_singleton.mp member

namespace MacroTable

variable {table : MacroTable} {entry : Entry} {tuple : List Nat} {known : HardwareName} {isAlias : Bool}

/-- What the names contribute to a tuple, name by name. Every name but the first is an alias. -/
def Contributed (table : MacroTable) (entry : Entry) (names : List HardwareName) (tuple : List Nat)
    (found : List Contribution) : Prop :=
  List.Forall₂ (fun item made => table.contribution entry tuple item.1 (item.2 != 0) = .ok made) names.zipIdx found

theorem privilege_resolved {made : Contribution} (done : table.contribution entry tuple known isAlias = .ok made)
    (address : entry.level = .address) :
    ∃ mask?, table.resolve (entry.indexName tuple known.name).name [privilegeSuffix] = .ok mask? ∧
      made.privilege? = mask?.map fun mask =>
        privilegeAlternative mask (entry.indexName tuple known.name) known.domain := by
  obtain ⟨privilege?, looked, done⟩ := bind_eq_ok.mp done
  obtain ⟨_, _, done⟩ := bind_eq_ok.mp done
  cases done
  rw [privilegeOf, if_pos address] at looked
  obtain ⟨mask?, walked, looked⟩ := bind_eq_ok.mp looked
  cases looked
  exact ⟨mask?, walked, rfl⟩

theorem privilege_of_other {made : Contribution} (done : table.contribution entry tuple known isAlias = .ok made)
    (other : entry.level ≠ .address) : made.privilege? = none := by
  obtain ⟨privilege?, looked, done⟩ := bind_eq_ok.mp done
  obtain ⟨_, _, done⟩ := bind_eq_ok.mp done
  cases done
  rw [privilegeOf, if_neg other] at looked
  cases looked
  rfl

end MacroTable

namespace Variant

variable {table : MacroTable} {variant : Variant} {device : Device} {targets : List Target} {target : Target}
  {tuple : List Nat}

theorem contributed_of_targets (done : variant.targets device table = .ok targets)
    (below : tuple ∈ indexTuples variant.entry.limits) :
    ∃ found, table.Contributed variant.entry (variant.deviceNames device) tuple found := by
  obtain ⟨parts, looked, _⟩ := bind_eq_ok.mp done
  obtain ⟨part, _, made⟩ := exists_result_of_mem (mapM_eq_ok.mp looked) below
  obtain ⟨found, contributed, _⟩ := bind_eq_ok.mp made
  exact ⟨found, mapM_eq_ok.mp contributed⟩

theorem slot_of_sizeTargets {ordinal : Nat}
    (member : target ∈ sizeTargets table variant.entry (variant.deviceNames device) ordinal) : target.slot = .size ordinal :=
  congrArg Target.slot (Target.eq_of_mem_ofAlternatives member)

theorem target_cases (done : variant.targets device table = .ok targets) (present : target ∈ targets) :
    (∃ ordinal, target ∈ sizeTargets table variant.entry (variant.deviceNames device) ordinal) ∨
      ∃ tuple found, table.Contributed variant.entry (variant.deviceNames device) tuple found ∧
        (target = ⟨.privilege tuple, found.filterMap Contribution.privilege?⟩ ∨
          target = ⟨.element tuple, found.flatMap Contribution.elements⟩) := by
  obtain ⟨parts, looked, done⟩ := bind_eq_ok.mp done
  cases done
  rcases List.mem_append.mp present with size | indexed
  · obtain ⟨ordinal, _, member⟩ := List.mem_flatMap.mp size
    exact .inl ⟨ordinal, member⟩
  · obtain ⟨part, inside, member⟩ := List.mem_flatten.mp indexed
    obtain ⟨tuple, _, made⟩ := exists_item_of_mem (mapM_eq_ok.mp looked) inside
    obtain ⟨found, contributed, made⟩ := bind_eq_ok.mp made
    cases made
    refine .inr ⟨tuple, found, mapM_eq_ok.mp contributed, ?_⟩
    exact (List.mem_append.mp member).imp Target.eq_of_mem_ofAlternatives Target.eq_of_mem_ofAlternatives

theorem alternatives_of_element (done : variant.targets device table = .ok targets) (present : target ∈ targets)
    (slot : target.slot = .element tuple) :
    ∃ found, table.Contributed variant.entry (variant.deviceNames device) tuple found ∧
      target.alternatives = found.flatMap Contribution.elements := by
  rcases target_cases done present with ⟨ordinal, size⟩ | ⟨tuple, found, contributed, rfl | rfl⟩
  · cases slot.symm.trans (slot_of_sizeTargets size)
  · cases slot
  · cases slot
    exact ⟨found, contributed, rfl⟩

theorem alternatives_of_privilege (done : variant.targets device table = .ok targets) (present : target ∈ targets)
    (slot : target.slot = .privilege tuple) :
    ∃ found, table.Contributed variant.entry (variant.deviceNames device) tuple found ∧
      target.alternatives = found.filterMap Contribution.privilege? := by
  rcases target_cases done present with ⟨ordinal, size⟩ | ⟨tuple, found, contributed, rfl | rfl⟩
  · cases slot.symm.trans (slot_of_sizeTargets size)
  · cases slot
    exact ⟨found, contributed, rfl⟩
  · cases slot

/-- A privilege is an alternative for the mask that one of the variant's names leads to. -/
theorem mask_of_privilege (done : variant.targets device table = .ok targets) (present : target ∈ targets)
    (slot : target.slot = .privilege tuple) {alternative : Alternative} (member : alternative ∈ target.alternatives) :
    ∃ known ∈ variant.deviceNames device, ∃ mask,
      table.resolve (variant.entry.indexName tuple known.name).name [privilegeSuffix] = .ok (some mask) ∧
      alternative = privilegeAlternative mask (variant.entry.indexName tuple known.name) known.domain := by
  obtain ⟨found, contributed, alternatives⟩ := alternatives_of_privilege done present slot
  rw [alternatives] at member
  obtain ⟨made, inside, privileged⟩ := List.mem_filterMap.mp member
  obtain ⟨item, numbered, looked⟩ := exists_item_of_mem contributed inside
  refine ⟨item.1, List.fst_mem_of_mem_zipIdx numbered, ?_⟩
  by_cases address : variant.entry.level = .address
  · obtain ⟨mask?, walked, shown⟩ := MacroTable.privilege_resolved looked address
    rw [privileged] at shown
    obtain ⟨mask, rfl, made⟩ := Option.map_eq_some_iff.mp shown.symm
    exact ⟨mask, walked, made.symm⟩
  · rw [MacroTable.privilege_of_other looked address] at privileged
    cases privileged

end Variant
end RegisterCatalog
