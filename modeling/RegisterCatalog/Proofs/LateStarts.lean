import RegisterCatalog.Proofs.WalkParameters

/-! Walks that start late. The way on from a name without suffixes is always the same, so a walk that starts at a name
on another walk ends where that one ends. It uses some of the same definitions and no others, so it brings
at most as many parameters. -/

namespace RegisterCatalog.MacroTable

variable {table : MacroTable} {name : String} {suffixes : List String} {destination : Destination}

theorem Walk.last_mem {start last : Waypoint} {walk : List Waypoint} (walked : Walk table start walk last) : last ∈ walk := by
  induction walked with
  | stay => exact List.mem_singleton.mpr rfl
  | move _ _ ih => exact List.mem_cons_of_mem _ ih

theorem definitionsOn_suffix {rest walk : List Waypoint} (last : rest <:+ walk) :
    table.definitionsOn rest <:+ table.definitionsOn walk := by
  obtain ⟨before, rfl⟩ := last
  induction before with
  | nil => exact List.suffix_rfl
  | cons here others ih =>
    apply ih.trans
    rw [List.cons_append]
    cases others ++ rest with
    | nil => exact List.nil_suffix
    | cons there later => exact List.suffix_append _ _

/-- A walk that has found something is short enough, and from each name on it that has no suffix left the rest of
it finds the same. -/
theorem resolve_of_member {walk : List Waypoint} {middle : String}
    (done : table.resolve name suffixes = .ok (some destination)) (walked : Walk table ⟨name, suffixes⟩ walk ⟨destination.name, []⟩)
    (stuck : Stuck table ⟨destination.name, []⟩) (member : ⟨middle, []⟩ ∈ walk) :
    ∃ rest parameters, Walk table ⟨middle, []⟩ rest ⟨destination.name, []⟩ ∧ rest <:+ walk ∧
      table.resolve middle [] = .ok (some ⟨destination.name, destination.definition, parameters⟩) := by
  obtain ⟨whole, going, _, _, short, defined⟩ :=
    (resolve_some_iff table name suffixes destination.name destination.definition).mp ⟨destination.parameters, done⟩
  cases walked.complete_unique going stuck stuck
  obtain ⟨rest, onward, last⟩ := walked.from_member member
  have away : NoReturn table [] rest := noReturn_of_nodup (onward.nodup_names stuck rfl) (by simp)
  obtain ⟨parameters, again⟩ :=
    (resolve_some_iff table middle [] destination.name destination.definition).mpr
      ⟨rest, onward, stuck, away, Nat.le_trans last.length_le short, defined⟩
  exact ⟨rest, parameters, onward, last, again⟩

/-- It does not matter where a walk is entered once its suffixes are taken up. From every name that it comes to after
that, the walk ends at the same name with the same definition, and has met at most as many parameters;
from the last name it brings the parameters of the definition there. -/
theorem resolve_entered_late (done : table.resolve name suffixes = .ok (some destination)) :
    ∃ walk, Walk table ⟨name, suffixes⟩ walk ⟨destination.name, []⟩ ∧ Stuck table ⟨destination.name, []⟩ ∧
      (∀ middle, ⟨middle, []⟩ ∈ walk → ∃ again, table.resolve middle [] = .ok (some again) ∧
        again.name = destination.name ∧ again.definition = destination.definition ∧
        again.parameters ≤ destination.parameters) ∧
      table.resolve destination.name [] =
        .ok (some ⟨destination.name, destination.definition, destination.definition.parameters⟩) := by
  obtain ⟨walk, walked, stuck, defined, greatest⟩ := resolve_parameters done
  refine ⟨walk, walked, stuck, ?_, ?_⟩
  · intro middle member
    obtain ⟨rest, parameters, onward, last, again⟩ := resolve_of_member done walked stuck member
    obtain ⟨other, going, _, _, least⟩ := resolve_parameters again
    cases going.complete_unique onward stuck stuck
    refine ⟨_, again, rfl, rfl, (least _).mpr fun used member => ?_⟩
    exact (greatest destination.parameters).mp (Nat.le_refl _) used ((definitionsOn_suffix last).subset member)
  · obtain ⟨_, parameters, _, _, again⟩ := resolve_of_member done walked stuck walked.last_mem
    obtain ⟨other, going, _, _, least⟩ := resolve_parameters again
    cases (going.of_stuck stuck).1
    have own : table.definitionsOn [⟨destination.name, []⟩] = [destination.definition] := by
      simp [definitionsOn, defined]
    have within (bound : Nat) : parameters ≤ bound ↔ destination.definition.parameters ≤ bound := by
      rw [least, own, List.forall_mem_singleton]
    rw [again, Nat.le_antisymm ((within _).mpr (Nat.le_refl _)) ((within _).mp (Nat.le_refl _))]

/-- The mask of `LW_A` is found under another name of it, and the further the walk goes, the fewer parameters there are. -/
def aliasedMask : MacroTable :=
  addText {} "#define LW_A LW_B\n#define LW_B 4\n#define LW_B__PRIV_LEVEL_MASK(i, j) LW_C\n#define LW_C(i) LW_D\n#define LW_D 7\n"

theorem resolve_entered_late_aliased_mask :
    ∃ walk, aliasedMask.resolve "LW_A" ["__PRIV_LEVEL_MASK"] = .ok (some ⟨"LW_D", ⟨"7", "7", 0⟩, 2⟩) ∧
      Walk aliasedMask ⟨"LW_A", ["__PRIV_LEVEL_MASK"]⟩ walk ⟨"LW_D", []⟩ ∧
      (∀ middle, ⟨middle, []⟩ ∈ walk → ∃ again, aliasedMask.resolve middle [] = .ok (some again) ∧
        again.name = "LW_D" ∧ again.definition = ⟨"7", "7", 0⟩ ∧ again.parameters ≤ 2) ∧
      aliasedMask.resolve "LW_D" [] = .ok (some ⟨"LW_D", ⟨"7", "7", 0⟩, 0⟩) := by
  have done : aliasedMask.resolve "LW_A" ["__PRIV_LEVEL_MASK"] = .ok (some ⟨"LW_D", ⟨"7", "7", 0⟩, 2⟩) := by
    decide +kernel
  obtain ⟨walk, walked, _, visited, last⟩ := resolve_entered_late done
  exact ⟨walk, done, walked, visited, last⟩

end RegisterCatalog.MacroTable
