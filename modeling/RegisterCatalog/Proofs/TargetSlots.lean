import RegisterCatalog.Catalog.Reader
import RegisterCatalog.Proofs.GreedyWalk
import RegisterCatalog.Proofs.IndexTuples
import RegisterCatalog.Proofs.Outcome
import RegisterCatalog.Resolution.Target

/-! The targets of a variant fill some of the slots that its dimensions plan, in the planned order. A
slot is filled exactly if the headers define what it asks for under one of the variant's names. -/

namespace RegisterCatalog
open Outcome

/-- The number of dimensions whose indices are arguments. -/
def Entry.argumentCount (entry : Entry) : Nat :=
  entry.dimensions.countP fun dimension => dimension.rule = .argument

/-- All slots that an entry may fill: the sizes, then for each tuple the privilege and the element. -/
def Entry.plannedSlots (entry : Entry) : List Slot :=
  (List.range' 1 entry.argumentCount).map .size ++
    (indexTuples entry.limits).flatMap fun tuple => [.privilege tuple, .element tuple]

theorem Entry.plannedSlots_nodup (entry : Entry) : entry.plannedSlots.Nodup := by
  rw [plannedSlots, List.nodup_append]
  refine ⟨?_, ?_, ?_⟩
  · exact List.Pairwise.map _ (fun _ _ different same => different (Slot.size.inj same)) List.nodup_range'
  · refine List.pairwise_flatMap.mpr ⟨by simp, (indexTuples_nodup entry.limits).imp ?_⟩
    intro first second different
    simp [different]
  · intro size member other inside
    obtain ⟨_, _, rfl⟩ := List.mem_map.mp member
    obtain ⟨_, _, found⟩ := List.mem_flatMap.mp inside
    intro same
    subst same
    simp at found

/-- The targets fill the planned slots that can be supplied, all of them and in order. -/
structure Target.Fill (supplied : Slot → Prop) (plan : List Slot) (targets : List Target) : Prop where
  ordered : (targets.map Target.slot).Sublist plan
  present : ∀ slot, slot ∈ targets.map Target.slot ↔ slot ∈ plan ∧ supplied slot
  inhabited : ∀ target ∈ targets, target.alternatives ≠ []

namespace Target.Fill

variable {supplied : Slot → Prop}

theorem ofAlternatives {slot : Slot} {alternatives : List Alternative} (same : alternatives ≠ [] ↔ supplied slot) :
    Fill supplied [slot] (Target.ofAlternatives slot alternatives) := by
  cases alternatives with
  | nil =>
    refine ⟨by simp [Target.ofAlternatives], ?_, by simp [Target.ofAlternatives]⟩
    intro other
    simp only [Target.ofAlternatives, List.isEmpty_nil, if_true, List.map_nil, List.not_mem_nil, false_iff,
      List.mem_singleton, not_and]
    intro here supply
    subst here
    exact same.mpr supply rfl
  | cons first rest =>
    have supply : supplied slot := same.mp (by simp)
    refine ⟨by simp [Target.ofAlternatives], ?_, by simp [Target.ofAlternatives]⟩
    intro other
    simp only [Target.ofAlternatives, List.isEmpty_cons, Bool.false_eq_true, if_false, List.map_singleton,
      List.mem_singleton, iff_self_and]
    intro here
    exact here ▸ supply

theorem append {first second : List Slot} {targets others : List Target} (one : Fill supplied first targets)
    (two : Fill supplied second others) : Fill supplied (first ++ second) (targets ++ others) := by
  refine ⟨?_, ?_, ?_⟩
  · rw [List.map_append]
    exact one.ordered.append two.ordered
  · intro slot
    rw [List.map_append, List.mem_append, one.present, two.present, List.mem_append, or_and_right]
  · intro target member
    rcases List.mem_append.mp member with here | there
    · exact one.inhabited target here
    · exact two.inhabited target there

theorem flatten {plan : α → List Slot} {items : List α} {found : List (List Target)}
    (parts : List.Forall₂ (fun item targets => Fill supplied (plan item) targets) items found) :
    Fill supplied (items.flatMap plan) found.flatten := by
  induction parts with
  | nil => exact ⟨.slnil, by simp, by simp⟩
  | cons part _ ih => exact part.append ih

theorem flatMap {plan : α → List Slot} {found : α → List Target} {items : List α}
    (parts : ∀ item, Fill supplied (plan item) (found item)) :
    Fill supplied (items.flatMap plan) (items.flatMap found) := by
  have flat : items.flatMap found = (items.map found).flatten := List.flatMap_def
  rw [flat]
  exact flatten (List.forall₂_map_right_iff.mpr (List.forall₂_same.mpr fun item _ => parts item))

end Target.Fill

theorem elementAlternatives_ne_nil (level : Level) (known : HardwareName) (arguments : List Nat)
    (offset? : Option String) : elementAlternatives level known arguments offset? ≠ [] := by
  unfold elementAlternatives
  split
  · split <;> simp
  · simp

namespace MacroTable

variable {table : MacroTable}

theorem privilegeOf_ne_none {level : Level} {indexed : IndexedName} {domain : String} {made : Option Alternative}
    (done : table.privilegeOf level indexed domain = .ok made) :
    made ≠ none ↔ level = .address ∧ ∃ mask, table.resolve indexed.name [privilegeSuffix] = .ok (some mask) := by
  unfold privilegeOf at done
  split at done
  next address =>
    obtain ⟨mask?, led, done⟩ := bind_eq_ok.mp done
    cases done
    cases mask? <;> simp [address, led]
  next other =>
    cases done
    simp [other]

theorem elementsOf_ne_nil {level : Level} {indexed : IndexedName} {domain : String} {isAlias : Bool}
    {made : List Alternative} (done : table.elementsOf level indexed domain isAlias = .ok made) :
    made ≠ [] ↔ table.contains indexed.name := by
  obtain ⟨found, walked, done⟩ := bind_eq_ok.mp done
  have missing := table.resolve_nil_none_iff indexed.name
  rw [walked, Except.ok.injEq] at missing
  cases found with
  | none =>
    cases done
    simpa using missing
  | some destination =>
    cases done
    simpa [elementAlternatives_ne_nil] using missing

/-- A name contributes a privilege if it leads to a mask, and elements if it is defined. -/
theorem contribution_eq_ok {entry : Entry} {tuple : List Nat} {known : HardwareName} {isAlias : Bool}
    {made : Contribution} (done : table.contribution entry tuple known isAlias = .ok made) :
    (made.privilege? ≠ none ↔ entry.level = .address ∧
      ∃ mask, table.resolve (entry.indexName tuple known.name).name [privilegeSuffix] = .ok (some mask)) ∧
    (made.elements ≠ [] ↔ table.contains (entry.indexName tuple known.name).name) := by
  obtain ⟨privilege?, masked, done⟩ := bind_eq_ok.mp done
  obtain ⟨elements, read, done⟩ := bind_eq_ok.mp done
  cases done
  exact ⟨privilegeOf_ne_none masked, elementsOf_ne_nil read⟩

end MacroTable

namespace Variant

/-- Whether the headers define what a slot asks for, under one of the names. -/
def Supplies (table : MacroTable) (entry : Entry) (names : List HardwareName) : Slot → Prop
  | .size ordinal => ∃ known ∈ names,
    table.contains (sizeMacro (entry.indexName entry.firstTuple known.name).name ordinal)
  | .privilege tuple => entry.level = .address ∧ ∃ known ∈ names, ∃ mask,
    table.resolve (entry.indexName tuple known.name).name [privilegeSuffix] = .ok (some mask)
  | .element tuple => ∃ known ∈ names, table.contains (entry.indexName tuple known.name).name

variable {table : MacroTable} {entry : Entry} {names : List HardwareName}

theorem sizeTargets_fill (ordinal : Nat) :
    Target.Fill (Supplies table entry names) [.size ordinal] (sizeTargets table entry names ordinal) := by
  apply Target.Fill.ofAlternatives
  rw [Ne, List.filterMap_eq_nil_iff]
  simp [Supplies]

private theorem exists_mem_zipIdx (items : List α) (good : α → Prop) :
    (∃ item ∈ items.zipIdx, good item.1) ↔ ∃ item ∈ items, good item := by
  constructor
  · intro numbered
    obtain ⟨item, member, holds⟩ := numbered
    exact ⟨item.1, List.fst_mem_of_mem_zipIdx member, holds⟩
  · intro plain
    obtain ⟨item, member, holds⟩ := plain
    rw [← List.zipIdx_map_fst 0 items] at member
    obtain ⟨pair, inside, rfl⟩ := List.mem_map.mp member
    exact ⟨pair, inside, holds⟩

theorem tupleTargets_fill {tuple : List Nat} {targets : List Target}
    (done : tupleTargets table entry names tuple = .ok targets) :
    Target.Fill (Supplies table entry names) [.privilege tuple, .element tuple] targets := by
  obtain ⟨found, looked, done⟩ := bind_eq_ok.mp done
  cases done
  have masks := exists_mapM_iff looked fun item made done => (MacroTable.contribution_eq_ok done).1
  have elements := exists_mapM_iff looked fun item made done => (MacroTable.contribution_eq_ok done).2
  rw [exists_mem_zipIdx names fun known => entry.level = .address ∧ ∃ mask,
    table.resolve (entry.indexName tuple known.name).name [privilegeSuffix] = .ok (some mask)] at masks
  rw [exists_mem_zipIdx names fun known => table.contains (entry.indexName tuple known.name).name] at elements
  refine Target.Fill.append (.ofAlternatives ?_) (.ofAlternatives ?_)
  · simp only [Ne, List.filterMap_eq_nil_iff, not_forall, exists_prop]
    rw [masks]
    simp only [Supplies, exists_and_left, and_left_comm]
  · simp only [Ne, List.flatMap_eq_nil_iff, not_forall, exists_prop]
    exact elements

theorem targets_fill {variant : Variant} {device : Device} {targets : List Target}
    (done : variant.targets device table = .ok targets) :
    Target.Fill (Supplies table variant.entry (variant.deviceNames device)) variant.entry.plannedSlots targets := by
  obtain ⟨elements, looked, done⟩ := bind_eq_ok.mp done
  cases done
  have ordinals : argumentOrdinals variant.entry = List.range' 1 variant.entry.argumentCount := by
    rw [argumentOrdinals, List.range'_eq_map_range]
    simp [Entry.argumentCount, Nat.add_comm]
  rw [Entry.plannedSlots, ordinals, List.map_eq_flatMap]
  refine Target.Fill.append (.flatMap fun ordinal => sizeTargets_fill ordinal) (.flatten ?_)
  exact (mapM_eq_ok.mp looked).imp fun _ _ found => tupleTargets_fill found

/-- The targets of a variant fill, in order and without repetition, exactly those planned slots that the
headers supply under one of the variant's names on the device. The plan goes through all tuples below
the limits in lexicographic order. -/
theorem targets_fill_planned_slots {variant : Variant} {device : Device} {targets : List Target}
    (done : variant.targets device table = .ok targets) :
    (targets.map Target.slot).Sublist variant.entry.plannedSlots ∧ (targets.map Target.slot).Nodup ∧
    (indexTuples variant.entry.limits).Pairwise (List.Lex (· < ·)) ∧
    (∀ tuple, tuple ∈ indexTuples variant.entry.limits ↔ List.Forall₂ (· < ·) tuple variant.entry.limits) ∧
    (∀ target ∈ targets, target.alternatives ≠ []) ∧
    ∀ slot ∈ variant.entry.plannedSlots,
      slot ∈ targets.map Target.slot ↔ Supplies table variant.entry (variant.deviceNames device) slot := by
  have fill := targets_fill done
  refine ⟨fill.ordered, fill.ordered.nodup variant.entry.plannedSlots_nodup,
    indexTuples_sorted variant.entry.limits, fun _ => mem_indexTuples, fill.inhabited, ?_⟩
  intro slot planned
  rw [fill.present, and_iff_right planned]

theorem targets_fill_planned_slots_masked_array :
    ∃ layout catalog targets, ∃ variant ∈ Catalog.variants {} catalog,
      ({} : Settings).layout = .ok layout ∧ Catalog.read {} layout "LW_A 2 -alias LW_B\n" = .ok catalog ∧
      variant.targets ⟨"gp100", "pascal", none, none⟩
        (MacroTable.addText {} "#define LW_B(i) 4\n#define LW_B__SIZE_1 2\n#define LW_A LW_B\n#define LW_B__PRIV_LEVEL_MASK 8\n")
        = .ok targets ∧
      targets.map Target.slot = [.size 1, .privilege [0], .element [0], .privilege [1], .element [1]] ∧
      (targets.map Target.slot).Sublist variant.entry.plannedSlots ∧
      ∀ target ∈ targets, target.alternatives ≠ [] := by
  have slots : ((Catalog.read {} ⟨8, 8, 14, by decide⟩ "LW_A 2 -alias LW_B\n").toOption.bind fun catalog =>
      (Catalog.variants {} catalog).head?.bind fun variant =>
        (variant.targets ⟨"gp100", "pascal", none, none⟩
          (MacroTable.addText {} "#define LW_B(i) 4\n#define LW_B__SIZE_1 2\n#define LW_A LW_B\n#define LW_B__PRIV_LEVEL_MASK 8\n")
          ).toOption.map fun targets => targets.map Target.slot) =
      some [.size 1, .privilege [0], .element [0], .privilege [1], .element [1]] := by
    decide +kernel
  obtain ⟨catalog, accepted, slots⟩ := Option.bind_eq_some_iff.mp slots
  obtain ⟨variant, first, slots⟩ := Option.bind_eq_some_iff.mp slots
  obtain ⟨targets, done, slots⟩ := Option.map_eq_some_iff.mp slots
  rw [toOption_eq_some] at accepted done
  have fills := targets_fill_planned_slots done
  exact ⟨_, catalog, targets, variant, List.mem_of_mem_head? first, rfl, accepted, done, slots, fills.1,
    fills.2.2.2.2.1⟩

end Variant
end RegisterCatalog
