import RegisterCatalog.Catalog.Reader
import RegisterCatalog.Proofs.Outcome
import RegisterCatalog.Proofs.Preprocessor

/-! Device tables after the preprocessor. A registration is left exactly for the devices that are compiled
in, and the array exactly if there is a registration, so none of them names an array that is gone. -/

namespace RegisterCatalog

/-- Whether a device is part of a build in which these names are defined. -/
def Device.compiledIn (defined : String → Bool) (device : Device) : Bool :=
  device.featureGuard?.all defined

namespace DeviceTable
open Preprocessor

/-- The number of the first line that belongs to a row. -/
def firstRow (table : DeviceTable) : Nat :=
  table.heading.length + (if table.guards.isEmpty then 0 else 1) + table.arrayStart.length

/-- Conditions on features are evaluated, those of the rows have any truth. -/
def conditions (table : DeviceTable) (defined : String → Bool) (holds : Nat → String → Bool) (number : Nat)
    (condition : String) : Option Bool :=
  if table.firstRow ≤ number ∧ number < table.firstRow + (rowLines none table.rows).length then
    some (holds number condition)
  else Condition.evaluate defined condition

theorem statementFor_plain (owner device : Device) : Line.ofText (owner.statementFor device) = .plain := by
  unfold Device.statementFor
  rw [String.append_assoc, String.append_assoc, String.append_assoc]
  exact ofText_plain _ (by decide)

section
variable {truth : Nat → String → Option Bool} {holds : Nat → String → Bool} {defined : String → Bool} {number : Nat}

theorem guarded_block {guards body kept : List String} (identifiers : ∀ guard ∈ guards, Condition.isIdentifier guard.toList)
    (evaluated : guards ≠ [] → truth number = Condition.evaluate defined)
    (inner : Block truth (number + if guards.isEmpty then 0 else 1) body kept) :
    Block truth number (guarded guards body) (if guards.isEmpty || guards.any defined then kept else []) := by
  cases guards with
  | nil => exact inner
  | cons first rest =>
    have value : truth number (Condition.anyDefined (first :: rest)) = some ((first :: rest).any defined) := by
      rw [evaluated (by simp), Condition.evaluate_anyDefined defined (by simp) identifiers]
    exact Block.conditional (ofText_if _) (ofText_endif _) value inner

theorem rowLines_block (rows : List TableRow) (last? : Option String)
    (decided : Decided truth holds number (rowLines last? rows).length) :
    ∃ kept, Block truth number (rowLines last? rows) kept := by
  induction rows generalizing last? number with
  | nil => exact ⟨[], .nil truth number⟩
  | cons row rest ih =>
    rw [rowLines] at decided ⊢
    have symbol : ∀ line ∈ (if last? = some row.symbol then [] else [s!"    /* {row.symbol} */"]),
        Line.ofText line = .plain := by
      intro line member
      split at member
      · cases member
      · rw [List.mem_singleton.mp member, String.append_assoc]
        exact ofText_plain _ (by decide)
    obtain ⟨later, block⟩ := ih (some row.symbol) decided.later
    exact ⟨_, .append (.append (.plains symbol) (row.block_lines decided.earlier.later)) block⟩

theorem registration_block (table : DeviceTable) {device : Device}
    (identifiers : ∀ guard ∈ device.featureGuard?, Condition.isIdentifier guard.toList)
    (evaluated : truth number = Condition.evaluate defined) :
    Block truth number (table.registration device)
      (if device.compiledIn defined then [table.device.statementFor device] else []) := by
  have asked : device.compiledIn defined =
      (device.featureGuard?.toList.isEmpty || device.featureGuard?.toList.any defined) := by
    cases guard : device.featureGuard? <;> simp [Device.compiledIn, guard]
  rw [registration_eq, asked]
  exact guarded_block (by simpa using identifiers) (fun _ => evaluated) (.plain (statementFor_plain table.device device))

end

section
variable {table : DeviceTable} {defined : String → Bool} {holds : Nat → String → Bool}

theorem guards_eq (nonempty : table.sharing ≠ []) : table.guards =
    if table.sharing.all (·.featureGuard?.isSome) then table.sharing.filterMap Device.featureGuard? else [] := by
  simp [guards, nonempty]

/-- The condition on the array holds exactly if one of the devices that use it is compiled in. -/
theorem guards_open_iff (defined : String → Bool) (nonempty : table.sharing ≠ []) :
    (table.guards.isEmpty || table.guards.any defined) = table.sharing.any (Device.compiledIn defined) := by
  rw [guards_eq nonempty]
  by_cases guarded : table.sharing.all (·.featureGuard?.isSome)
  · have each : ∀ device ∈ table.sharing, ∃ guard, device.featureGuard? = some guard := by
      simpa [Option.isSome_iff_exists] using guarded
    rw [if_pos guarded, Bool.eq_iff_iff, Bool.or_eq_true, List.isEmpty_iff, List.any_eq_true, List.any_eq_true]
    constructor
    · rintro (empty | ⟨guard, member, isDefined⟩)
      · obtain ⟨device, member⟩ := List.exists_mem_of_ne_nil _ nonempty
        obtain ⟨guard, found⟩ := each device member
        have missing := List.filterMap_eq_nil_iff.mp empty device member
        rw [found] at missing
        cases missing
      · obtain ⟨device, inside, found⟩ := List.mem_filterMap.mp member
        exact ⟨device, inside, by simp [Device.compiledIn, found, isDefined]⟩
    · rintro ⟨device, member, compiled⟩
      obtain ⟨guard, found⟩ := each device member
      refine .inr ⟨guard, List.mem_filterMap.mpr ⟨device, member, found⟩, ?_⟩
      simpa [Device.compiledIn, found] using compiled
  · rw [if_neg guarded]
    obtain ⟨device, member, free⟩ : ∃ device ∈ table.sharing, device.featureGuard? = none := by
      simpa using guarded
    have compiled : device.compiledIn defined := by simp [Device.compiledIn, free]
    symm
    simpa using ⟨device, member, compiled⟩

theorem conditions_row (table : DeviceTable) (defined : String → Bool) (holds : Nat → String → Bool) :
    Decided (table.conditions defined holds) holds table.firstRow (rowLines none table.rows).length := by
  intro number lower upper condition
  exact if_pos ⟨lower, upper⟩

theorem conditions_feature {number : Nat}
    (outside : number < table.firstRow ∨ table.firstRow + (rowLines none table.rows).length ≤ number) :
    table.conditions defined holds number = Condition.evaluate defined := by
  funext condition
  exact if_neg (by omega)

theorem heading_plain (table : DeviceTable) : ∀ line ∈ table.heading, Line.ofText line = .plain := by
  refine heading_forall (by decide) ?_ (by decide)
  rw [String.append_assoc]
  exact ofText_plain _ (by decide)

theorem arrayStart_plain (table : DeviceTable) : ∀ line ∈ table.arrayStart, Line.ofText line = .plain := by
  refine arrayStart_forall (by decide) (by decide) ?_
  unfold declaration
  rw [String.append_assoc]
  exact ofText_plain _ (by decide)

theorem arrayEnd_plain : ∀ line ∈ arrayEnd, Line.ofText line = .plain := by
  decide

theorem guards_identifiers (nonempty : table.sharing ≠ [])
    (identifiers : ∀ device ∈ table.sharing, ∀ guard ∈ device.featureGuard?, Condition.isIdentifier guard.toList) :
    ∀ guard ∈ table.guards, Condition.isIdentifier guard.toList := by
  intro guard member
  rw [guards_eq nonempty] at member
  split at member
  · obtain ⟨device, sharer, found⟩ := List.mem_filterMap.mp member
    exact identifiers device sharer guard found
  · cases member

theorem map_statementFor (owner : Device) (defined : String → Bool) (devices : List Device) :
    (devices.filter (Device.compiledIn defined)).map owner.statementFor =
      devices.flatMap fun device => if device.compiledIn defined then [owner.statementFor device] else [] := by
  induction devices with
  | nil => rfl
  | cons device rest ih => by_cases compiled : device.compiledIn defined <;> simp [compiled, ih]

/-- What is left of a table of which some lines of the rows are left: its array and the registrations of
the devices that are compiled in, or neither. -/
def compiled (table : DeviceTable) (defined : String → Bool) (rows : List String) : List String :=
  table.heading ++
    if table.sharing.any (Device.compiledIn defined) then
      table.arrayStart ++ (rows ++ (arrayEnd ++ (table.sharing.filter (Device.compiledIn defined)).map table.device.statementFor))
    else []

theorem lines_block (nonempty : table.sharing ≠ [])
    (identifiers : ∀ device ∈ table.sharing, ∀ guard ∈ device.featureGuard?, Condition.isIdentifier guard.toList) :
    ∃ rows, rows.Sublist (rowLines none table.rows) ∧
      Block (table.conditions defined holds) 0 table.lines (table.compiled defined rows) := by
  obtain ⟨rows, block⟩ := rowLines_block table.rows none (table.conditions_row defined holds)
  refine ⟨rows, block.sublist, ?_⟩
  rw [lines_eq, compiled, ← guards_open_iff defined nonempty]
  apply Block.append (.plains table.heading_plain)
  apply guarded_block (guards_identifiers nonempty identifiers)
  · intro _
    apply conditions_feature
    exact .inl (by simp only [firstRow, arrayStart, List.length_cons]; omega)
  · rw [Nat.zero_add]
    apply Block.append (.plains table.arrayStart_plain)
    apply Block.append block
    apply Block.append (.plains arrayEnd_plain)
    rw [map_statementFor]
    apply Block.flatMap
    intro device sharer number after
    apply registration_block table (identifiers device sharer)
    apply conditions_feature
    exact .inr (by omega)

theorem filter_isRegistration {rows : List String} (inside : rows.Sublist (rowLines none table.rows)) :
    (table.compiled defined rows).filter isRegistration =
      (table.sharing.filter (Device.compiledIn defined)).map table.device.statementFor := by
  have plain : ∀ line ∈ rows, isRegistration line = false :=
    fun line member => rowLines_isRegistration table.rows line (inside.subset member)
  unfold compiled
  rw [List.filter_append, filter_other table.heading_isRegistration, List.nil_append]
  split
  · rw [List.filter_append, List.filter_append, List.filter_append, filter_other table.arrayStart_isRegistration,
      filter_other plain, filter_other arrayEnd_isRegistration, filter_statements]
    rfl
  next off =>
    have nobody : table.sharing.filter (Device.compiledIn defined) = [] := by
      simpa [List.filter_eq_nil_iff] using off
    rw [nobody]
    rfl

theorem declaration_mem_iff (rows : List String) :
    table.declaration ∈ table.compiled defined rows ++ [""] ↔ table.sharing.any (Device.compiledIn defined) := by
  have start : table.declaration.toList.head? = some 's' := by
    unfold declaration
    rw [String.append_assoc]
    exact Text.head?_append _ (by decide)
  have title : (s!"/* Register table for {table.device.name}. */").toList.head? = some '/' := by
    rw [String.append_assoc]
    exact Text.head?_append _ (by decide)
  have elsewhere : ∀ line ∈ table.heading ++ [""], line.toList.head? ≠ some 's' :=
    List.forall_mem_cons.mpr ⟨by decide, List.forall_mem_cons.mpr ⟨by rw [title]; decide, by decide⟩⟩
  unfold compiled
  by_cases on : table.sharing.any (Device.compiledIn defined)
  · simp [on, arrayStart]
  · rw [if_neg on, List.append_nil]
    constructor
    · intro member
      exact absurd start (elsewhere _ member)
    · intro compiled
      exact absurd compiled on

end

variable {settings : Settings} {catalog : Catalog} {macros : MacroTable} {list : DeviceList} {device : Device}
  {built : DeviceTable}

theorem parts_of_build {sharing : List Device} (made : build settings catalog device sharing macros = .ok built) :
    built.device = device ∧ built.sharing = sharing := by
  obtain ⟨rows, _, done⟩ := Outcome.bind_eq_ok.mp made
  cases done
  exact ⟨rfl, rfl⟩

/-- The preprocessor finds every conditional of a table closed, whatever the rows are guarded by. It leaves one
registration for each device that uses the table and is compiled in, in their order, and the array exactly if there
is one. -/
theorem registrations_follow_features (listed : device ∈ list.devices)
    (made : build settings catalog device (list.sharing device) macros = .ok built)
    (identifiers : ∀ sharer ∈ list.sharing device, ∀ guard ∈ sharer.featureGuard?, Condition.isIdentifier guard.toList)
    (names : ∀ sharer ∈ list.sharing device, Text.OneLine sharer.name)
    (texts : ∀ row ∈ built.rows, ∀ text ∈ row.texts, Text.OneLine text)
    (defined : String → Bool) (holds : Nat → String → Bool) :
    ∃ left rows, survivors (built.conditions defined holds) built.text = some left ∧
      left = built.compiled defined rows ++ [""] ∧ rows.Sublist (rowLines none built.rows) ∧
      left.filter isRegistration = ((list.sharing device).filter (Device.compiledIn defined)).map device.statementFor ∧
      (built.declaration ∈ left ↔ ∃ line ∈ left, isRegistration line) := by
  obtain ⟨rfl, shared⟩ := parts_of_build made
  rw [← shared] at identifiers names ⊢
  have own : built.device ∈ built.sharing := by simp [shared, DeviceList.sharing, Device.sharesHeaders, listed]
  have nonempty : built.sharing ≠ [] := List.ne_nil_of_mem own
  have single := lines_oneLine (names built.device own) names (guards_identifiers nonempty identifiers) identifiers texts
  obtain ⟨rows, inside, block⟩ := @lines_block built defined holds nonempty identifiers
  have closing : Line.ofText "" = .plain := by decide
  have registrations : (built.compiled defined rows ++ [""]).filter isRegistration =
      (built.sharing.filter (Device.compiledIn defined)).map built.device.statementFor := by
    rw [List.filter_append, filter_isRegistration inside]
    exact List.append_nil _
  refine ⟨_, rows, ?_, rfl, inside, registrations, ?_⟩
  · rw [survivors, text, Text.linesOf_ofLines single]
    exact (block.append (.plain closing)).run_whole
  · rw [declaration_mem_iff, List.any_eq_true]
    constructor
    · rintro ⟨sharer, member, compiled⟩
      have left : built.device.statementFor sharer ∈ (built.compiled defined rows ++ [""]).filter isRegistration := by
        rw [registrations]
        exact List.mem_map_of_mem (List.mem_filter.mpr ⟨member, compiled⟩)
      exact ⟨_, List.mem_filter.mp left⟩
    · rintro ⟨line, member, registers⟩
      have left := List.mem_filter.mpr ⟨member, registers⟩
      rw [registrations] at left
      obtain ⟨sharer, kept, _⟩ := List.mem_map.mp left
      exact ⟨sharer, List.mem_filter.mp kept⟩

/-- Three devices with one table, two of them under one feature. -/
def sharedByThree : DeviceList :=
  ⟨[⟨"a", "dir", none, some "FA"⟩, ⟨"b", "dir", none, some "FB"⟩, ⟨"other", "else", none, none⟩,
    ⟨"c", "dir", none, some "FA"⟩]⟩

theorem registrations_follow_features_shared :
    ∃ catalog built, Catalog.read {} ⟨8, 8, 14, by decide⟩ "LW_A\n" = .ok catalog ∧
      build {} catalog ⟨"a", "dir", none, some "FA"⟩ (sharedByThree.sharing ⟨"a", "dir", none, some "FA"⟩)
        (MacroTable.addText {} "#define LW_A 0x10\n") = .ok built ∧ built.guards = ["FA", "FB", "FA"] ∧
      ∀ holds, ∃ left, survivors (built.conditions (· == "FA") holds) built.text = some left ∧
        left.filter isRegistration = ["LWHAL_REGISTER_TABLE(a, lwhalTable_a);", "LWHAL_REGISTER_TABLE(c, lwhalTable_a);"] ∧
        built.declaration ∈ left := by
  have rows : ((Catalog.read {} ⟨8, 8, 14, by decide⟩ "LW_A\n").toOption.bind fun catalog =>
      (build {} catalog ⟨"a", "dir", none, some "FA"⟩ (sharedByThree.sharing ⟨"a", "dir", none, some "FA"⟩)
        (MacroTable.addText {} "#define LW_A 0x10\n")).toOption.map DeviceTable.rows) =
      some [⟨0x40010000, "LWHAL_A", .element [], .any, none,
        [⟨some (.scalar "LW_A"), "LW_A", "RAW", none⟩, ⟨some (.present "LW_A"), "LW_A(0)", "RAW", none⟩]⟩] := by
    decide +kernel
  obtain ⟨catalog, accepted, rows⟩ := Option.bind_eq_some_iff.mp rows
  obtain ⟨built, made, rows⟩ := Option.map_eq_some_iff.mp rows
  rw [Outcome.toOption_eq_some] at accepted made
  obtain ⟨named, shared⟩ := parts_of_build made
  have guards : built.guards = ["FA", "FB", "FA"] := by
    rw [DeviceTable.guards, shared, named]
    decide
  refine ⟨catalog, built, accepted, made, guards, ?_⟩
  intro holds
  obtain ⟨left, _, balanced, _, _, registrations, declared⟩ := registrations_follow_features (by decide) made (by decide)
    (by decide) (by rw [rows]; decide) (· == "FA") holds
  have texts : left.filter isRegistration =
      ["LWHAL_REGISTER_TABLE(a, lwhalTable_a);", "LWHAL_REGISTER_TABLE(c, lwhalTable_a);"] := by
    rw [registrations]
    decide
  refine ⟨left, balanced, texts, declared.mpr ?_⟩
  have first : "LWHAL_REGISTER_TABLE(a, lwhalTable_a);" ∈ left.filter isRegistration := by simp [texts]
  exact ⟨_, List.mem_filter.mp first⟩

end DeviceTable
end RegisterCatalog
