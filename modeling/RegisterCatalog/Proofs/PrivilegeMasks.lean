import RegisterCatalog.Catalog.Reader
import RegisterCatalog.Proofs.Contributions
import RegisterCatalog.Proofs.PrintedKeys
import RegisterCatalog.Proofs.WalkParameters

/-! How a privilege mask is used. The expression names the macro at the end of a walk and gives it as many arguments
as the walk brings along, so it is a proper use of that macro only as long as the walk has met no more parameters than
the macro has itself. -/

namespace RegisterCatalog
open Outcome

/-- The expression uses the macro as it is defined: bare, or called with an argument for each parameter. -/
def Definition.UsedBy (definition : Definition) (name expression : String) : Prop :=
  if definition.parameters = 0 then expression = name
  else ∃ arguments : List Nat, arguments.length = definition.parameters ∧ expression = callText name arguments

theorem toList_callText (name : String) (arguments : List Nat) :
    (callText name arguments).toList = name.toList ++
      ('(' :: ([',', ' '].intercalate ((arguments.map toString).map String.toList) ++ [')'])) := by
  have plain (text : String) : toString text = text := rfl
  simp [callText, plain, String.toList_intercalate]

theorem callText_injective {name : String} {first second : List Nat}
    (same : callText name first = callText name second) : first = second := by
  have texts := congrArg String.toList same
  rw [toList_callText, toList_callText, List.append_cancel_left_eq, List.cons.injEq,
    List.append_cancel_right_eq] at texts
  have plain (numbers : List Nat) : ∀ text ∈ (numbers.map toString).map String.toList, Chars.Plain text := by
    simp only [List.forall_mem_map]
    exact fun number _ => plain_toString number
  have lists := Chars.intercalate_injective (plain first) (plain second) texts.2
  exact map_toString_injective ((List.map_inj_right fun _ _ equal => String.toList_inj.mp equal).mp lists)

theorem callText_ne (name : String) (arguments : List Nat) : callText name arguments ≠ name := by
  intro same
  have length := congrArg List.length (congrArg String.toList same)
  rw [toList_callText, List.length_append, List.length_cons] at length
  omega

theorem length_fitArguments (count : Nat) (arguments : List Nat) : (fitArguments count arguments).length = count := by
  rw [fitArguments, List.length_append, List.length_take, List.length_replicate]
  omega

theorem usedBy_privilegeAlternative {mask : MacroTable.Destination} {definition : Definition} (indexed : IndexedName)
    (domain : String) :
    definition.UsedBy mask.name (privilegeAlternative mask indexed domain).expression ↔
      mask.parameters = definition.parameters := by
  unfold Definition.UsedBy privilegeAlternative
  dsimp only
  by_cases bare : mask.parameters = 0
  · rw [if_pos bare, bare]
    split
    next none => simp [none]
    next some =>
      constructor
      · rintro ⟨arguments, _, same⟩
        exact absurd same.symm (callText_ne mask.name arguments)
      · intro none
        exact absurd none.symm some
  · rw [if_neg bare]
    split
    next none =>
      rw [none]
      exact ⟨fun same => absurd same (callText_ne mask.name _), fun none => absurd none bare⟩
    next some =>
      constructor
      · rintro ⟨arguments, count, same⟩
        rw [← count, ← callText_injective same, length_fitArguments]
      · intro same
        exact ⟨_, (length_fitArguments _ _).trans same, rfl⟩

namespace Variant

variable {table : MacroTable} {variant : Variant} {device : Device} {targets : List Target} {target : Target}
  {tuple : List Nat}

/-- Each alternative of a privilege names the macro at the end of the walk from one of the variant's names. It uses
the macro as it is defined exactly if no definition that the walk uses has more parameters than the macro. -/
theorem mask_used_as_defined_iff (done : variant.targets device table = .ok targets) (present : target ∈ targets)
    (slot : target.slot = .privilege tuple) {alternative : Alternative} (member : alternative ∈ target.alternatives) :
    ∃ known ∈ variant.deviceNames device, ∃ walk mask definition,
      table.Walk ⟨(variant.entry.indexName tuple known.name).name, [privilegeSuffix]⟩ walk ⟨mask, []⟩ ∧
      table.Stuck ⟨mask, []⟩ ∧ table.get? mask = some definition ∧ alternative.guard? = some (.present mask) ∧
      (definition.UsedBy mask alternative.expression ↔
        ∀ used ∈ table.definitionsOn walk, used.parameters ≤ definition.parameters) := by
  obtain ⟨known, named, mask, resolved, rfl⟩ := mask_of_privilege done present slot member
  obtain ⟨walk, walked, stuck, defined, greatest⟩ := MacroTable.resolve_parameters resolved
  refine ⟨known, named, walk, mask.name, mask.definition, walked, stuck, defined, rfl, ?_⟩
  have own : mask.definition.parameters ≤ mask.parameters :=
    (greatest mask.parameters).mp (Nat.le_refl _) _ (MacroTable.last_mem_definitionsOn walked defined)
  rw [usedBy_privilegeAlternative, ← greatest]
  exact ⟨fun same => Nat.le_of_eq same, fun least => Nat.le_antisymm least own⟩

/-- The last macro of the walk has more parameters than the one before it. -/
def widerMask : MacroTable :=
  MacroTable.addText {} "#define LW_A__PRIV_LEVEL_MASK(i) LW_PLM\n#define LW_PLM(i, j) 8\n"

theorem mask_used_as_defined_iff_wider :
    ∃ layout catalog targets, ∃ variant ∈ Catalog.variants {} catalog, ∃ target ∈ targets,
      ∃ alternative ∈ target.alternatives,
      ({} : Settings).layout = .ok layout ∧ Catalog.read {} layout "LW_A 2\n" = .ok catalog ∧
      variant.targets ⟨"gp100", "pascal", none, none⟩ widerMask = .ok targets ∧ target.slot = .privilege [1] ∧
      alternative.expression = "LW_PLM(1, 0)" ∧
      ∃ walk definition, widerMask.Walk ⟨"LW_A", [privilegeSuffix]⟩ walk ⟨"LW_PLM", []⟩ ∧
        widerMask.get? "LW_PLM" = some definition ∧ definition.UsedBy "LW_PLM" alternative.expression ∧
        ∀ used ∈ widerMask.definitionsOn walk, used.parameters ≤ definition.parameters := by
  have computed : ((Catalog.read {} ⟨8, 8, 14, by decide⟩ "LW_A 2\n").toOption.bind fun catalog =>
      (Catalog.variants {} catalog).head?.bind fun variant =>
        (variant.targets ⟨"gp100", "pascal", none, none⟩ widerMask).toOption.bind fun targets =>
          targets[1]?.bind fun target => target.alternatives.head?.map fun alternative =>
            ((target.slot, alternative.guard?, alternative.expression),
              (variant.deviceNames ⟨"gp100", "pascal", none, none⟩).map fun known =>
                (variant.entry.indexName [1] known.name).name)) =
      some ((.privilege [1], some (.present "LW_PLM"), "LW_PLM(1, 0)"), ["LW_A"]) := by
    decide +kernel
  have two : (widerMask.get? "LW_PLM").map Definition.parameters = some 2 := by
    decide +kernel
  obtain ⟨catalog, accepted, computed⟩ := Option.bind_eq_some_iff.mp computed
  obtain ⟨variant, first, computed⟩ := Option.bind_eq_some_iff.mp computed
  obtain ⟨targets, done, computed⟩ := Option.bind_eq_some_iff.mp computed
  obtain ⟨target, present, computed⟩ := Option.bind_eq_some_iff.mp computed
  obtain ⟨alternative, inside, computed⟩ := Option.map_eq_some_iff.mp computed
  rw [toOption_eq_some] at accepted done
  simp only [Prod.mk.injEq] at computed
  obtain ⟨⟨slot, guard, expression⟩, starts⟩ := computed
  have member := List.mem_of_getElem? present
  have taken := List.mem_of_mem_head? inside
  obtain ⟨known, inside, walk, mask, definition, walked, _, defined, named, used⟩ :=
    mask_used_as_defined_iff done member slot taken
  cases guard.symm.trans named
  have start := List.mem_map_of_mem (f := fun known => (variant.entry.indexName [1] known.name).name) inside
  rw [starts, List.mem_singleton] at start
  rw [start] at walked
  rw [defined, Option.map_some, Option.some.injEq] at two
  have proper : definition.UsedBy "LW_PLM" alternative.expression := by
    rw [Definition.UsedBy, two, expression]
    exact ⟨[1, 0], rfl, by decide +kernel⟩
  exact ⟨_, catalog, targets, variant, List.mem_of_mem_head? first, target, member, alternative, taken, rfl, accepted,
    done, slot, expression, walk, definition, walked, defined, proper, used.mp proper⟩

/-- The last macro of the walk has no parameters, but the one before it has. -/
def bareMask : MacroTable :=
  MacroTable.addText {} "#define LW_A__PRIV_LEVEL_MASK(i) LW_PLM\n#define LW_PLM 8\n"

/-- A macro without parameters is called with an argument that was meant for the macro that leads to it. -/
theorem bare_mask_called :
    ∃ layout catalog targets, ∃ variant ∈ Catalog.variants {} catalog, ∃ target ∈ targets,
      ∃ alternative ∈ target.alternatives, ∃ definition,
      ({} : Settings).layout = .ok layout ∧ Catalog.read {} layout "LW_A\n" = .ok catalog ∧
      variant.targets ⟨"gp100", "pascal", none, none⟩ bareMask = .ok targets ∧ target.slot = .privilege [] ∧
      alternative.guard? = some (.present "LW_PLM") ∧ bareMask.get? "LW_PLM" = some definition ∧
      definition.parameters = 0 ∧ ¬ definition.UsedBy "LW_PLM" alternative.expression := by
  have computed : ((Catalog.read {} ⟨8, 8, 14, by decide⟩ "LW_A\n").toOption.bind fun catalog =>
      (Catalog.variants {} catalog).head?.bind fun variant =>
        (variant.targets ⟨"gp100", "pascal", none, none⟩ bareMask).toOption.bind fun targets =>
          targets.head?.bind fun target => target.alternatives.head?.bind fun alternative =>
            (bareMask.get? "LW_PLM").map fun definition =>
              (target.slot, alternative.guard?, definition.parameters, alternative.expression)) =
      some (.privilege [], some (.present "LW_PLM"), 0, "LW_PLM(0)") := by
    decide +kernel
  obtain ⟨catalog, accepted, computed⟩ := Option.bind_eq_some_iff.mp computed
  obtain ⟨variant, first, computed⟩ := Option.bind_eq_some_iff.mp computed
  obtain ⟨targets, done, computed⟩ := Option.bind_eq_some_iff.mp computed
  obtain ⟨target, present, computed⟩ := Option.bind_eq_some_iff.mp computed
  obtain ⟨alternative, inside, computed⟩ := Option.bind_eq_some_iff.mp computed
  obtain ⟨definition, defined, computed⟩ := Option.map_eq_some_iff.mp computed
  rw [toOption_eq_some] at accepted done
  simp only [Prod.mk.injEq] at computed
  obtain ⟨slot, guard, none, expression⟩ := computed
  refine ⟨_, catalog, targets, variant, List.mem_of_mem_head? first, target, List.mem_of_mem_head? present, alternative,
    List.mem_of_mem_head? inside, definition, rfl, accepted, done, slot, guard, defined, none, ?_⟩
  rw [Definition.UsedBy, if_pos none, expression]
  decide

end Variant
end RegisterCatalog
