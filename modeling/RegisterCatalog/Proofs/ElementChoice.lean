import RegisterCatalog.Catalog.Reader
import RegisterCatalog.Proofs.Conditions
import RegisterCatalog.Proofs.Contributions
import RegisterCatalog.Proofs.GreedyWalk

/-! Which alternative the preprocessor takes for an element. The conditions of a chain overlap, so their order
matters: the chain as a whole takes the first name of the variant under which the element can be read. -/

namespace RegisterCatalog
open Outcome Condition

/-- Whether the preprocessor takes an alternative that it comes to. -/
def Alternative.applies (table : MacroTable) (alternative : Alternative) : Bool :=
  match alternative.guard? with
  | none => true
  | some guard => evaluate table.contains guard.text = some true

def Target.chosen? (table : MacroTable) (target : Target) : Option Alternative :=
  target.alternatives.find? fun alternative => alternative.applies table

def Alternative.reading (alternative : Alternative) : String × String × Option String :=
  (alternative.expression, alternative.domain, alternative.offset?)

def MacroTable.parametersOf (table : MacroTable) (name : String) : Nat :=
  match table.resolve name [] with
  | .ok (some found) => found.parameters
  | _ => 0

/-- A name that an element may be read under, with its arguments there. -/
structure Candidate where
  name : String
  arguments : List Nat
  domain : String

def Entry.candidate (entry : Entry) (table : MacroTable) (tuple : List Nat) (known : HardwareName) (isAlias : Bool) :
    Candidate :=
  let indexed := entry.indexName tuple known.name
  let missing := if isAlias then table.parametersOf indexed.name - indexed.arguments.length else 0
  ⟨indexed.name, indexed.arguments ++ List.replicate missing 0, known.domain⟩

def Variant.candidates (variant : Variant) (device : Device) (table : MacroTable) (tuple : List Nat) : List Candidate :=
  (variant.deviceNames device).zipIdx.map fun (known, place) =>
    variant.entry.candidate table tuple known (place != 0)

def Entry.offsetAt? (entry : Entry) (tuple : List Nat) : Option String :=
  let strides := (entry.dimensions.zip tuple).filterMap Dimension.stride?
  if strides.isEmpty then none else some (String.intercalate " + " strides)

namespace Candidate

/-- The name is defined, and as an array if there are arguments. -/
def usable (table : MacroTable) (candidate : Candidate) : Bool :=
  table.contains candidate.name && (candidate.arguments.isEmpty || table.contains (sizeMacro candidate.name 1))

def expression (table : MacroTable) (level : Level) (candidate : Candidate) : String :=
  let read :=
    if candidate.arguments ≠ [] then callText candidate.name candidate.arguments
    else if level = .value ∨ ¬ table.contains (sizeMacro candidate.name 1) then candidate.name
    else candidate.name ++ "(0)"
  if level = .field then "LWHAL_FIELD(" ++ read ++ ")" else read

end Candidate

variable {table : MacroTable}

theorem callText_zero (name : String) : callText name [0] = name ++ "(0)" := by
  apply String.toList_inj.mp
  have plain (text : String) : toString text = text := rfl
  have digit : Nat.toDigits 10 0 = ['0'] := rfl
  simp [callText, plain, digit]

theorem wrapFor_eq (level : Level) (read : String) :
    wrapFor level read = if level = .field then "LWHAL_FIELD(" ++ read ++ ")" else read := by
  rfl

theorem applies_of_holds {alternative : Alternative} {guard : Guard} {truth : Bool}
    (guarded : alternative.guard? = some guard) (identifiers : ∀ name ∈ guard.name?, isIdentifier name.toList)
    (holds : guard.holds table.contains = some truth) : alternative.applies table = truth := by
  rw [Alternative.applies, guarded]
  simp [Guard.evaluate_text table.contains identifiers, holds]

theorem mem_elementAlternatives {level : Level} {known : HardwareName} {arguments : List Nat}
    {offset? : Option String} {alternative : Alternative}
    (member : alternative ∈ elementAlternatives level known arguments offset?) :
    ∃ guard, alternative.guard? = some guard ∧ guard.name? = some known.name ∧ alternative.domain = known.domain := by
  unfold elementAlternatives at member
  dsimp only at member
  split at member
  · split at member
    · cases List.mem_singleton.mp member
      exact ⟨_, rfl, rfl, rfl⟩
    · rcases List.mem_pair.mp member with rfl | rfl <;> exact ⟨_, rfl, rfl, rfl⟩
  · cases List.mem_singleton.mp member
    exact ⟨_, rfl, rfl, rfl⟩

/-- Among the alternatives of one defined name, the preprocessor takes one exactly if the name is usable. -/
theorem elementAlternatives_find? {level : Level} {candidate : Candidate} (offset? : Option String)
    (identifier : isIdentifier candidate.name.toList) (defined : table.contains candidate.name) :
    ((elementAlternatives level ⟨candidate.name, candidate.domain⟩ candidate.arguments offset?).find?
        fun alternative => alternative.applies table).map Alternative.reading =
      if candidate.usable table then some (candidate.expression table level, candidate.domain, offset?) else none := by
  obtain ⟨name, arguments, domain⟩ := candidate
  dsimp only at identifier defined ⊢
  have taken (guard : Guard) (expression : String) (truth : Bool) (tests : guard.name? = some name)
      (holds : guard.holds table.contains = some truth) :
      (⟨some guard, expression, domain, offset?⟩ : Alternative).applies table = truth := by
    refine applies_of_holds rfl ?_ holds
    simpa [tests] using identifier
  have present (expression : String) := taken (.present name) expression _ rfl rfl
  have scalar (expression : String) := taken (.scalar name) expression _ rfl rfl
  have array (expression : String) := taken (.array name) expression _ rfl rfl
  cases arguments with
  | nil =>
    by_cases value : level = .value
    · simp [elementAlternatives, value, present, defined, Candidate.usable, Candidate.expression, Alternative.reading, wrapFor_eq]
    · cases sized : table.contains (sizeMacro name 1) <;>
        simp [elementAlternatives, value, present, scalar, defined, sized, Candidate.usable, Candidate.expression,
          Alternative.reading, wrapFor_eq, callText_zero]
  | cons index others =>
    cases sized : table.contains (sizeMacro name 1) <;>
      simp [elementAlternatives, array, defined, sized, Candidate.usable, Candidate.expression, Alternative.reading, wrapFor_eq]

namespace MacroTable

theorem contribution_elements {entry : Entry} {tuple : List Nat} {known : HardwareName} {isAlias : Bool}
    {made : Contribution} (done : table.contribution entry tuple known isAlias = .ok made) :
    made.elements = if table.contains (entry.candidate table tuple known isAlias).name then
        elementAlternatives entry.level ⟨(entry.candidate table tuple known isAlias).name, known.domain⟩
          (entry.candidate table tuple known isAlias).arguments (entry.offsetAt? tuple)
      else [] := by
  have named : (entry.candidate table tuple known isAlias).name = (entry.indexName tuple known.name).name := rfl
  obtain ⟨_, _, done⟩ := bind_eq_ok.mp done
  obtain ⟨elements, looked, done⟩ := bind_eq_ok.mp done
  cases done
  obtain ⟨found?, walked, looked⟩ := bind_eq_ok.mp looked
  have missing := table.resolve_nil_none_iff (entry.indexName tuple known.name).name
  rw [walked, Except.ok.injEq] at missing
  cases found? with
  | none =>
    cases looked
    rw [named, if_neg (missing.mp rfl)]
  | some found =>
    have defined : table.contains (entry.indexName tuple known.name).name := by
      by_contra undefined
      cases missing.mpr undefined
    have parameters : table.parametersOf (entry.indexName tuple known.name).name = found.parameters := by
      rw [parametersOf, walked]
    have arguments : (entry.candidate table tuple known isAlias).arguments =
        if isAlias && (entry.indexName tuple known.name).arguments.length < found.parameters then
          fitArguments found.parameters (entry.indexName tuple known.name).arguments
        else (entry.indexName tuple known.name).arguments := by
      simp only [Entry.candidate, parameters]
      cases isAlias with
      | false => simp
      | true =>
        by_cases fewer : (entry.indexName tuple known.name).arguments.length < found.parameters
        · simp only [fewer, Bool.true_and, decide_true, if_true, fitArguments]
          rw [List.take_of_length_le (Nat.le_of_lt fewer)]
        · have none : found.parameters - (entry.indexName tuple known.name).arguments.length = 0 := by omega
          simp [fewer, none]
    cases looked
    rw [named, if_pos defined, arguments]
    rfl

theorem contribution_find? {entry : Entry} {tuple : List Nat} {known : HardwareName} {isAlias : Bool}
    {made : Contribution} (identifier : isIdentifier (entry.candidate table tuple known isAlias).name.toList)
    (done : table.contribution entry tuple known isAlias = .ok made) :
    (made.elements.find? fun alternative => alternative.applies table).map Alternative.reading =
      if (entry.candidate table tuple known isAlias).usable table then
        some ((entry.candidate table tuple known isAlias).expression table entry.level, known.domain, entry.offsetAt? tuple)
      else none := by
  rw [contribution_elements done]
  split
  next defined => exact elementAlternatives_find? (entry.offsetAt? tuple) identifier defined
  next undefined => simp [Candidate.usable, undefined]

theorem contribution_guard {entry : Entry} {tuple : List Nat} {known : HardwareName} {isAlias : Bool}
    {made : Contribution} (identifier : isIdentifier (entry.candidate table tuple known isAlias).name.toList)
    (done : table.contribution entry tuple known isAlias = .ok made) {alternative : Alternative}
    (member : alternative ∈ made.elements) :
    ∃ guard truth, alternative.guard? = some guard ∧ evaluate table.contains guard.text = some truth := by
  rw [contribution_elements done] at member
  split at member
  · obtain ⟨guard, guarded, tests, _⟩ := mem_elementAlternatives member
    have means : evaluate table.contains guard.text = guard.holds table.contains :=
      Guard.evaluate_text table.contains (by simpa [tests] using identifier)
    cases guard with
    | written condition => cases tests
    | present name | scalar name | array name => exact ⟨_, _, guarded, means⟩
  · simp at member

theorem guards_of_contributions {entry : Entry} {tuple : List Nat} {names : List (HardwareName × Nat)}
    {found : List Contribution}
    (contributed : List.Forall₂ (fun item made =>
      table.contribution entry tuple item.1 (item.2 != 0) = .ok made) names found)
    (identifiers : ∀ item ∈ names, isIdentifier (entry.candidate table tuple item.1 (item.2 != 0)).name.toList) :
    ∀ alternative ∈ found.flatMap Contribution.elements, ∃ guard truth,
      alternative.guard? = some guard ∧ evaluate table.contains guard.text = some truth := by
  induction contributed with
  | nil => simp
  | cons made _ ih =>
    rw [List.forall_mem_cons] at identifiers
    intro alternative member
    rcases List.mem_append.mp member with here | there
    · exact contribution_guard identifiers.1 made here
    · exact ih identifiers.2 alternative there

theorem find?_contributions {entry : Entry} {tuple : List Nat} {names : List (HardwareName × Nat)}
    {found : List Contribution}
    (contributed : List.Forall₂ (fun item made =>
      table.contribution entry tuple item.1 (item.2 != 0) = .ok made) names found)
    (identifiers : ∀ item ∈ names, isIdentifier (entry.candidate table tuple item.1 (item.2 != 0)).name.toList) :
    ((found.flatMap Contribution.elements).find? fun alternative => alternative.applies table).map Alternative.reading =
      ((names.map fun item => entry.candidate table tuple item.1 (item.2 != 0)).find? fun candidate =>
        candidate.usable table).map fun candidate =>
          (candidate.expression table entry.level, candidate.domain, entry.offsetAt? tuple) := by
  induction contributed with
  | nil => rfl
  | cons made _ ih =>
    rw [List.forall_mem_cons] at identifiers
    have first := contribution_find? identifiers.1 made
    rw [List.flatMap_cons, List.find?_append, Option.map_or, first, ih identifiers.2, List.map_cons, List.find?_cons]
    split
    next usable =>
      rw [usable]
      rfl
    next unusable =>
      rw [Bool.not_eq_true] at unusable
      rw [unusable, Option.none_or]

end MacroTable

namespace Variant

variable {variant : Variant} {device : Device} {targets : List Target} {target : Target} {tuple : List Nat}

/-- For an element whose names are C identifiers, the preprocessor understands every condition of the chain and
takes the first usable name of the variant: with its own expression and domain, and with the offset of the
element. It takes nothing exactly if no name is usable. -/
theorem element_chosen_by_first_usable (done : variant.targets device table = .ok targets) (present : target ∈ targets)
    (slot : target.slot = .element tuple)
    (identifiers : ∀ candidate ∈ variant.candidates device table tuple, isIdentifier candidate.name.toList) :
    (∀ alternative ∈ target.alternatives, ∃ guard truth,
      alternative.guard? = some guard ∧ evaluate table.contains guard.text = some truth) ∧
    ((target.chosen? table).map fun alternative => (alternative.expression, alternative.domain, alternative.offset?)) =
      (((variant.candidates device table tuple).find? fun candidate => candidate.usable table).map fun candidate =>
        (candidate.expression table variant.entry.level, candidate.domain, variant.entry.offsetAt? tuple)) ∧
    (target.chosen? table = none ↔ ∀ candidate ∈ variant.candidates device table tuple, ¬ candidate.usable table) := by
  obtain ⟨found, contributed, alternatives⟩ := alternatives_of_element done present slot
  have named := List.forall_mem_map.mp identifiers
  have chosen : (target.chosen? table).map Alternative.reading =
      (((variant.candidates device table tuple).find? fun candidate => candidate.usable table).map fun candidate =>
        (candidate.expression table variant.entry.level, candidate.domain, variant.entry.offsetAt? tuple)) := by
    rw [Target.chosen?, alternatives]
    exact MacroTable.find?_contributions contributed named
  refine ⟨?_, chosen, ?_⟩
  · rw [alternatives]
    exact MacroTable.guards_of_contributions contributed named
  · rw [← Option.map_eq_none_iff, chosen, Option.map_eq_none_iff, List.find?_eq_none]

/-- Only the second name is defined as an array, and it has one more parameter than the first. -/
def widerAlias : MacroTable :=
  MacroTable.addText {} "#define LW_A(i) 4\n#define LW_B(i, j) 8\n#define LW_B__SIZE_1 2\n"

theorem element_chosen_by_first_usable_alias :
    ∃ layout catalog targets, ∃ variant ∈ Catalog.variants {} catalog, ∃ target ∈ targets,
      ({} : Settings).layout = .ok layout ∧ Catalog.read {} layout "LW_A 2 -alias LW_B\n" = .ok catalog ∧
      variant.targets ⟨"gp100", "pascal", none, none⟩ widerAlias = .ok targets ∧ target.slot = .element [1] ∧
      target.alternatives.length = 2 ∧
      ((target.chosen? widerAlias).map fun alternative =>
        (alternative.expression, alternative.domain, alternative.offset?)) = some ("LW_B(1, 0)", "RAW", none) := by
  have computed : ((Catalog.read {} ⟨8, 8, 14, by decide⟩ "LW_A 2 -alias LW_B\n").toOption.bind fun catalog =>
      (Catalog.variants {} catalog).head?.bind fun variant =>
        (variant.targets ⟨"gp100", "pascal", none, none⟩ widerAlias).toOption.bind fun targets =>
          targets[2]?.bind fun target =>
            ((variant.candidates ⟨"gp100", "pascal", none, none⟩ widerAlias [1]).find? fun candidate =>
              candidate.usable widerAlias).map fun candidate =>
                ((target.slot, target.alternatives.length),
                  (variant.candidates ⟨"gp100", "pascal", none, none⟩ widerAlias [1]).map Candidate.name,
                  (candidate.expression widerAlias variant.entry.level, candidate.domain, variant.entry.offsetAt? [1]))) =
      some ((.element [1], 2), ["LW_A", "LW_B"], ("LW_B(1, 0)", "RAW", none)) := by
    decide +kernel
  obtain ⟨catalog, accepted, computed⟩ := Option.bind_eq_some_iff.mp computed
  obtain ⟨variant, first, computed⟩ := Option.bind_eq_some_iff.mp computed
  obtain ⟨targets, done, computed⟩ := Option.bind_eq_some_iff.mp computed
  obtain ⟨target, present, computed⟩ := Option.bind_eq_some_iff.mp computed
  obtain ⟨candidate, usable, computed⟩ := Option.map_eq_some_iff.mp computed
  rw [toOption_eq_some] at accepted done
  simp only [Prod.mk.injEq] at computed
  obtain ⟨⟨slot, two⟩, names, expression, domain, offset⟩ := computed
  have member := List.mem_of_getElem? present
  have identifiers : ∀ candidate ∈ variant.candidates ⟨"gp100", "pascal", none, none⟩ widerAlias [1],
      isIdentifier candidate.name.toList := by
    have all : ∀ name ∈ ["LW_A", "LW_B"], isIdentifier name.toList := by decide
    rw [← names] at all
    exact List.forall_mem_map.mp all
  obtain ⟨_, chosen, _⟩ := element_chosen_by_first_usable done member slot identifiers
  rw [usable, Option.map_some, expression, domain, offset] at chosen
  exact ⟨_, catalog, targets, variant, List.mem_of_mem_head? first, target, member, rfl, accepted, done, slot, two, chosen⟩

end Variant
end RegisterCatalog
