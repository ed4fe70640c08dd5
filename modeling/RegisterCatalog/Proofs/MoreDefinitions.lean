import RegisterCatalog.Proofs.Contributions
import RegisterCatalog.Proofs.TargetSlots

/-! More definitions never take a target away. They may lead a walk to its suffix sooner, or on from a name that was
the last one, but a walk that has taken its suffix up stands at a defined name, and there it stays among the defined
names until it ends. -/

namespace RegisterCatalog
open Outcome

namespace MacroTable

variable {table larger : MacroTable}

/-- The larger table has every definition of the table, and perhaps others. -/
def Within (table larger : MacroTable) : Prop :=
  ∀ name definition, table.get? name = some definition → larger.get? name = some definition

theorem Within.contains (within : table.Within larger) {name : String} (defined : table.contains name) :
    larger.contains name := by
  obtain ⟨definition, found⟩ := Option.isSome_iff_exists.mp defined
  exact Option.isSome_of_eq_some (within name definition found)

theorem get?_insert (table : MacroTable) (name other : String) (definition : Definition) :
    MacroTable.get? { definitions := table.definitions.insert name definition } other =
      if name = other then some definition else table.get? other := by
  simp [get?, Std.TreeMap.getElem?_insert]

/-- A header that defines only new names keeps all definitions. -/
theorem within_addText {header : String}
    (fresh : ∀ line ∈ Text.lines header, ∀ made ∈ Definition.ofLine? line, ¬ table.contains made.1) :
    table.Within (table.addText header) := by
  have kept (lines : List String) (fresh : ∀ line ∈ lines, ∀ made ∈ Definition.ofLine? line, ¬ table.contains made.1)
      (current : MacroTable) (within : table.Within current) : table.Within (lines.foldl addLine current) := by
    induction lines generalizing current with
    | nil => exact within
    | cons line rest ih =>
      rw [List.forall_mem_cons] at fresh
      apply ih fresh.2
      unfold addLine
      split
      · exact within
      next new definition made =>
        intro name old found
        have other : new ≠ name := by
          rintro rfl
          exact fresh.1 _ made (Option.isSome_of_eq_some found)
        rw [get?_insert, if_neg other]
        exact within name old found
  exact kept _ fresh table fun _ _ found => found

/-- A walk takes up its only suffix on the larger table, too. The induction is on the walk on the smaller table, which
the other one goes along until the suffix can be taken up. -/
theorem Walk.ends_defined (within : table.Within larger) {suffix : String} {start last stop : Waypoint}
    {walk path : List Waypoint} (walked : Walk table start walk last) (single : start.pending = [suffix])
    (consumed : last.pending = []) (other : Walk larger start path stop) (stuck : Stuck larger stop) :
    stop.pending = [] ∧ larger.contains stop.name := by
  induction walked generalizing path with
  | stay => cases single.symm.trans consumed
  | @move start next _ _ moved _ ih =>
    obtain ⟨name, pending⟩ := start
    cases single
    by_cases sooner : larger.contains (name ++ suffix)
    · obtain ⟨rest, _, after⟩ := other.of_moves (.inl (.intro sooner)) stuck
      obtain ⟨_, done, lasting⟩ := after.without_suffixes rfl
      exact ⟨done, lasting sooner⟩
    · rcases moved with extended | redirected
      · cases extended with
        | intro defined => exact absurd (within.contains defined) sooner
      · obtain ⟨_, defined, different, known⟩ := redirected
        have greedy : ∀ there, ¬ Extends larger ⟨name, [suffix]⟩ there := by
          intro there extended
          cases extended with
          | intro defined => exact sooner defined
        have redirected := Redirects.intro greedy (within name _ defined) different (within.contains known)
        obtain ⟨rest, _, after⟩ := other.of_moves (.inr redirected) stuck
        exact ih rfl consumed after

theorem resolve_ne_none (within : table.Within larger) {name suffix : String} {destination : Destination}
    (found : table.resolve name [suffix] = .ok (some destination)) : larger.resolve name [suffix] ≠ .ok none := by
  intro lost
  obtain ⟨last, definition, parameters⟩ := destination
  obtain ⟨walk, walked, _⟩ := (resolve_some_iff table name [suffix] last definition).mp ⟨parameters, found⟩
  obtain ⟨path, stop, other, stuck, _, _, missing⟩ := (resolve_none_iff larger name [suffix]).mp lost
  obtain ⟨done, defined⟩ := walked.ends_defined within rfl rfl other stuck
  rcases missing with undefined | pending
  · exact undefined defined
  · exact pending done

end MacroTable

namespace Variant

variable {table larger : MacroTable} {variant : Variant} {device : Device} {targets others : List Target}

theorem supplies_within (within : table.Within larger) (again : variant.targets device larger = .ok others)
    {slot : Slot} (planned : slot ∈ variant.entry.plannedSlots)
    (supplied : Supplies table variant.entry (variant.deviceNames device) slot) :
    Supplies larger variant.entry (variant.deviceNames device) slot := by
  cases slot with
  | size ordinal =>
    obtain ⟨known, member, defined⟩ := supplied
    exact ⟨known, member, within.contains defined⟩
  | element tuple =>
    obtain ⟨known, member, defined⟩ := supplied
    exact ⟨known, member, within.contains defined⟩
  | privilege tuple =>
    obtain ⟨address, known, member, mask, resolved⟩ := supplied
    have below : tuple ∈ indexTuples variant.entry.limits := by
      simpa [Entry.plannedSlots] using planned
    obtain ⟨found, contributed⟩ := contributed_of_targets again below
    rw [← List.zipIdx_map_fst 0 (variant.deviceNames device)] at member
    obtain ⟨item, numbered, rfl⟩ := List.mem_map.mp member
    obtain ⟨made, _, looked⟩ := exists_result_of_mem contributed numbered
    obtain ⟨mask?, walked, _⟩ := MacroTable.privilege_resolved looked address
    cases mask? with
    | none => exact absurd walked (MacroTable.resolve_ne_none within resolved)
    | some wider => exact ⟨address, item.1, List.fst_mem_of_mem_zipIdx numbered, wider, walked⟩

/-- Every target that a variant has with the definitions of some headers is also there with more of them, as long as
no walk fails. -/
theorem slots_kept_by_more_definitions (within : table.Within larger)
    (done : variant.targets device table = .ok targets) (again : variant.targets device larger = .ok others) :
    targets.map Target.slot ⊆ others.map Target.slot := by
  intro slot filled
  obtain ⟨planned, supplied⟩ := ((targets_fill done).present slot).mp filled
  exact ((targets_fill again).present slot).mpr ⟨planned, supplies_within within again planned supplied⟩

/-- The mask is found at the end of a chain of names. -/
def lateMask : MacroTable :=
  MacroTable.addText {} "#define LW_A LW_B\n#define LW_B(i) LW_C\n#define LW_C 4\n#define LW_C__PRIV_LEVEL_MASK 8\n"

/-- A name in the middle of the chain has a mask of its own. -/
def earlyMask : MacroTable :=
  lateMask.addText "#define LW_B__PRIV_LEVEL_MASK LW_M\n#define LW_M 12\n#define LW_A__SIZE_1 2\n"

theorem slots_kept_by_more_definitions_early_mask :
    ∃ layout catalog targets others, ∃ variant ∈ Catalog.variants {} catalog,
      ({} : Settings).layout = .ok layout ∧ Catalog.read {} layout "LW_A 2\n" = .ok catalog ∧
      lateMask.Within earlyMask ∧ variant.targets ⟨"gp100", "pascal", none, none⟩ lateMask = .ok targets ∧
      variant.targets ⟨"gp100", "pascal", none, none⟩ earlyMask = .ok others ∧
      targets.map Target.slot = [.privilege [0], .element [0], .privilege [1], .element [1]] ∧
      targets.map Target.slot ⊆ others.map Target.slot := by
  have computed : ((Catalog.read {} ⟨8, 8, 14, by decide⟩ "LW_A 2\n").toOption.bind fun catalog =>
      (Catalog.variants {} catalog).head?.bind fun variant =>
        (variant.targets ⟨"gp100", "pascal", none, none⟩ lateMask).toOption.bind fun targets =>
          (variant.targets ⟨"gp100", "pascal", none, none⟩ earlyMask).toOption.map fun _ =>
            targets.map Target.slot) =
      some [.privilege [0], .element [0], .privilege [1], .element [1]] := by
    decide +kernel
  obtain ⟨catalog, accepted, computed⟩ := Option.bind_eq_some_iff.mp computed
  obtain ⟨variant, first, computed⟩ := Option.bind_eq_some_iff.mp computed
  obtain ⟨targets, done, computed⟩ := Option.bind_eq_some_iff.mp computed
  obtain ⟨others, again, slots⟩ := Option.map_eq_some_iff.mp computed
  rw [toOption_eq_some] at accepted done again
  have within : lateMask.Within earlyMask := MacroTable.within_addText (by decide +kernel)
  exact ⟨_, catalog, targets, others, variant, List.mem_of_mem_head? first, rfl, accepted, within, done, again, slots,
    slots_kept_by_more_definitions within done again⟩

end Variant
end RegisterCatalog
