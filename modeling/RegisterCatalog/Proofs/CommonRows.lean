import RegisterCatalog.Proofs.Occurrences
import RegisterCatalog.Proofs.SharedTables

/-! Why one table serves several devices. The headers of a device are found by its directories alone, and its name
enters a table only through rules that ask for it. Where no rule does, a device that shares the headers of
another would get the rows of the other again. -/

namespace RegisterCatalog

theorem Chars.replace_of_absent {old text : List Char} (new : List Char) (absent : contains old text = false) :
    replace old new text = text := by
  have same : old ≠ [] → replaceFrom old new 0 text = text := by
    intro some
    induction text with
    | nil => rfl
    | cons c rest ih =>
      rw [← Bool.not_eq_true, contains_iff, List.infix_cons_iff, not_or, ← contains_iff, Bool.not_eq_true] at absent
      rw [replaceFrom, if_neg (mt List.isPrefixOf_iff_prefix.mp absent.1), ih absent.2]
  cases old with
  | nil => exact absurd (contains_iff.mpr (List.nil_infix)) (absent ▸ Bool.false_ne_true)
  | cons first others => exact same (List.cons_ne_nil first others)

theorem Text.replace_of_absent {old text : String} (new : String) (absent : contains old text = false) :
    replace old new text = text := by
  rw [replace, Chars.replace_of_absent new.toList absent, String.ofList_toList]

def DeviceRule.NamesDevice (rule : DeviceRule) : Prop :=
  Text.contains "\x7bDEVICE\x7d" rule.new ∨ Text.contains "\x7bdevice\x7d" rule.new

instance (rule : DeviceRule) : Decidable rule.NamesDevice := inferInstanceAs (Decidable (_ ∨ _))

theorem DeviceRule.replacement_of_unnamed {rule : DeviceRule} (unnamed : ¬ rule.NamesDevice) (device : String) :
    rule.replacement device = rule.new := by
  obtain ⟨upper, lower⟩ := not_or.mp unnamed
  rw [Bool.not_eq_true] at upper lower
  rw [replacement, Text.replace_of_absent _ upper, Text.replace_of_absent _ lower]

namespace Variant

variable {variant : Variant}

theorem deviceName_congr (unnamed : ∀ rule ∈ variant.address.deviceRules, ¬ rule.NamesDevice) (first second : Device)
    (name : String) : variant.deviceName first name = variant.deviceName second name := by
  have rules : variant.address.deviceRules.foldl (fun name rule => rule.apply first.name name) name =
      variant.address.deviceRules.foldl (fun name rule => rule.apply second.name name) name := by
    apply List.foldl_ext
    intro name rule member
    rw [DeviceRule.apply, DeviceRule.apply, DeviceRule.replacement_of_unnamed (unnamed rule member),
      DeviceRule.replacement_of_unnamed (unnamed rule member)]
  rw [deviceName, deviceName, rules]

theorem resolve_congr (unnamed : ∀ rule ∈ variant.address.deviceRules, ¬ rule.NamesDevice) (first second : Device)
    (table : MacroTable) : variant.resolve first table = variant.resolve second table := by
  have names : variant.deviceNames first = variant.deviceNames second := by
    unfold deviceNames
    simp only [deviceName_congr unnamed first second]
  rw [resolve, resolve, targets, targets, names]

end Variant

theorem Resolution.untilFailure_congr {variants : List Variant}
    (unnamed : ∀ variant ∈ variants, ∀ rule ∈ variant.address.deviceRules, ¬ rule.NamesDevice) (first second : Device)
    (table : MacroTable) : untilFailure first table variants = untilFailure second table variants := by
  induction variants with
  | nil => rfl
  | cons variant rest ih =>
    rw [List.forall_mem_cons] at unnamed
    rw [untilFailure, untilFailure, Variant.resolve_congr unnamed.1 first second, ih unnamed.2]

namespace Catalog

variable {catalog : Catalog}

theorem addressOf_mem {entry : Entry} {place : Nat} (member : entry ∈ catalog.toList) :
    catalog.addressOf place entry ∈ catalog.toList := by
  unfold addressOf
  cases found : catalog.entries[catalog.addressPlace place]? with
  | none => exact member
  | some address => exact Array.mem_toList_iff.mpr (Array.mem_of_getElem? found)

/-- No rule of the catalog asks for the name of a device. -/
def Unnamed (catalog : Catalog) : Prop :=
  ∀ entry ∈ catalog.toList, ∀ rule ∈ entry.deviceRules, ¬ rule.NamesDevice

instance (catalog : Catalog) : Decidable catalog.Unnamed :=
  inferInstanceAs (Decidable (∀ entry ∈ catalog.toList, ∀ rule ∈ entry.deviceRules, ¬ rule.NamesDevice))

theorem Unnamed.resolve_congr (unnamed : catalog.Unnamed) (settings : Settings) (first second : Device)
    (table : MacroTable) : catalog.resolve settings first table = catalog.resolve settings second table := by
  apply Resolution.untilFailure_congr
  intro variant member
  obtain ⟨⟨entry, place⟩, inside, expanded⟩ := List.mem_flatMap.mp member
  rw [(Entry.origin_of_variants expanded).2]
  exact unnamed _ (addressOf_mem (List.fst_mem_of_mem_zipIdx inside))

end Catalog

theorem DeviceTable.map_rows_build (settings : Settings) (catalog : Catalog) (device : Device) (sharing : List Device)
    (table : MacroTable) : (build settings catalog device sharing table).map rows =
      Resolution.rows (catalog.resolve settings device table) := by
  unfold build
  cases Resolution.rows (catalog.resolve settings device table) <;> rfl

namespace Job

theorem run_forM_log (messages : List LogMessage) (world : World) : ((messages.forM log).run.run world).1 = .ok () := by
  induction messages generalizing world with
  | nil => rfl
  | cons message rest ih => exact ih _

end Job

namespace LoadedHeaders
open Job

variable {first second : Device}

theorem loadAll_alike (same : first.sharesHeaders second) (settings : Settings) (driversRoot : String)
    (loaded : LoadedHeaders) (files : List String) :
    (loadAll settings driversRoot first loaded files).Alike (loadAll settings driversRoot second loaded files) := by
  induction files generalizing loaded with
  | nil => exact Alike.refl _
  | cons file rest ih =>
    have paths : candidates settings driversRoot first file = candidates settings driversRoot second file := by
      obtain ⟨headers, display⟩ := Device.sharesHeaders_iff.mp same
      rw [candidates, candidates, headers, display]
    unfold loadAll
    rw [paths]
    apply Alike.bind (Alike.refl _)
    intro found
    cases found with
    | none => exact (alike_log _ _).bind fun _ => Alike.refl _
    | some path =>
      apply (alike_log _ _).bind
      intro _
      apply (Alike.refl _).bind
      intro text
      exact ih _

theorem load_congr (same : first.sharesHeaders second) (settings : Settings) (driversRoot : String) (world : World) :
    ((load settings driversRoot first).run.run world).1 = ((load settings driversRoot second).run.run world).1 :=
  (loadAll_alike same settings driversRoot {} settings.headerFiles world world rfl).1

end LoadedHeaders

namespace Request
open Job

variable {settings : Settings} {catalog : Catalog} {list : DeviceList} {place : Nat} {device : Device}

theorem run_tableText_duplicate (duplicate : list.isDuplicate place device) (table : MacroTable) (world : World) :
    ((tableText settings catalog ⟨list, place, device⟩ table).run.run world).1 =
      .ok (DeviceTable.stub device s!"shares the table of {(list.canonical device).name}") := by
  unfold tableText
  dsimp only
  rw [if_pos duplicate]
  rfl

theorem run_tableText_built {table : MacroTable} {built : DeviceTable} (first : ¬ list.isDuplicate place device)
    (known : ¬ table.isEmpty)
    (done : DeviceTable.build settings catalog device (list.sharing device) table = .ok built) (world : World) :
    ((tableText settings catalog ⟨list, place, device⟩ table).run.run world).1 = .ok built.text := by
  unfold tableText resolvedTable
  dsimp only
  rw [if_neg first, if_neg known, done, run_bind]
  have logged := run_forM_log (DeviceTable.log device (catalog.resolve settings device table)) world
  cases ran : ((DeviceTable.log device (catalog.resolve settings device table)).forM log).run.run world with
  | mk result after =>
    rw [ran] at logged
    dsimp only at logged
    subst logged
    rfl

/-- A device whose headers another device before it has is given a stub that names the first of these. If no rule asks
for the name of a device, nothing is lost: on any files both devices find the same headers or fail alike, and on
any macros both get the same rows or the same failure. So the file of the first device has every row that a table
of the other would have had. -/
theorem stub_hides_no_row (listed : list.devices[place]? = some device) (duplicate : list.isDuplicate place device)
    (unnamed : catalog.Unnamed) :
    (list.canonicalPlace device < place ∧ list.devices[list.canonicalPlace device]? = some (list.canonical device)) ∧
    (∀ settings driversRoot world, ((LoadedHeaders.load settings driversRoot device).run.run world).1 =
      ((LoadedHeaders.load settings driversRoot (list.canonical device)).run.run world).1) ∧
    (∀ settings sharing others table, (DeviceTable.build settings catalog device sharing table).map DeviceTable.rows =
      (DeviceTable.build settings catalog (list.canonical device) others table).map DeviceTable.rows) ∧
    ∀ settings sharing table built world, ¬ table.isEmpty →
      DeviceTable.build settings catalog device sharing table = .ok built →
      ((tableText settings catalog ⟨list, place, device⟩ table).run.run world).1 =
        .ok (DeviceTable.stub device s!"shares the table of {(list.canonical device).name}") ∧
      ((tableText settings catalog ⟨list, list.canonicalPlace device, list.canonical device⟩ table).run.run world).1 =
        .ok (DeviceTable.text ⟨list.canonical device, list.sharing device, built.rows⟩) := by
  have member := List.mem_of_getElem? listed
  obtain ⟨placed, shares⟩ := DeviceList.getElem?_canonicalPlace member
  have rows : ∀ settings sharing others table,
      (DeviceTable.build settings catalog device sharing table).map DeviceTable.rows =
        (DeviceTable.build settings catalog (list.canonical device) others table).map DeviceTable.rows := by
    intro settings sharing others table
    rw [DeviceTable.map_rows_build, DeviceTable.map_rows_build,
      unnamed.resolve_congr settings device (list.canonical device)]
  refine ⟨⟨?_, placed⟩, fun settings => LoadedHeaders.load_congr shares settings, rows, ?_⟩
  · have different : list.canonicalPlace device ≠ place := by simpa [DeviceList.isDuplicate] using duplicate
    exact Nat.lt_of_le_of_ne (DeviceList.canonicalPlace_le listed device.sharesHeaders_refl) different
  · intro settings sharing table built world known done
    refine ⟨run_tableText_duplicate duplicate table world, ?_⟩
    have owner : ¬ list.isDuplicate (list.canonicalPlace device) (list.canonical device) := by
      simp [DeviceList.isDuplicate, DeviceList.canonicalPlace_canonical member]
    have sharers : list.sharing (list.canonical device) = list.sharing device := by
      rw [DeviceList.sharing, DeviceList.sharing, Device.sharesHeaders_congr shares]
    have same := rows settings sharing (list.sharing (list.canonical device)) table
    rw [done] at same
    cases other : DeviceTable.build settings catalog (list.canonical device) (list.sharing (list.canonical device)) table with
    | error cycle => simp [other, Except.map] at same
    | ok own =>
      have parts : own = ⟨list.canonical device, list.sharing device, built.rows⟩ := by
        obtain ⟨named, shared⟩ := DeviceTable.parts_of_build other
        rw [other] at same
        rw [← named, ← sharers, ← shared, show built.rows = own.rows from Except.ok.inj same]
      rw [run_tableText_built owner known other, parts]

theorem stub_hides_no_row_renamed :
    ∃ catalog built, Catalog.read {} ⟨8, 8, 14, by decide⟩ "LW_QB -replace_string Q=A\n" = .ok catalog ∧
      pairAndThird.isDuplicate 1 ⟨"b", "d", none, some "FB"⟩ ∧ catalog.Unnamed ∧
      ((LoadedHeaders.load singleHeader "drivers" ⟨"b", "d", none, some "FB"⟩).run.run { tree := pairAndThirdFiles }).1 =
        ((LoadedHeaders.load singleHeader "drivers" ⟨"a", "d", none, none⟩).run.run { tree := pairAndThirdFiles }).1 ∧
      DeviceTable.build {} catalog ⟨"b", "d", none, some "FB"⟩ [] (MacroTable.addText {} "#define LW_AB 0x10\n") = .ok built ∧
      (built.rows.map fun row => row.alternatives.map Alternative.expression) = [["LW_AB", "LW_AB(0)"]] ∧
      ((tableText {} catalog ⟨pairAndThird, 1, ⟨"b", "d", none, some "FB"⟩⟩
        (MacroTable.addText {} "#define LW_AB 0x10\n")).run.run {}).1 =
        .ok (DeviceTable.stub ⟨"b", "d", none, some "FB"⟩ "shares the table of a") ∧
      ((tableText {} catalog ⟨pairAndThird, 0, ⟨"a", "d", none, none⟩⟩
        (MacroTable.addText {} "#define LW_AB 0x10\n")).run.run {}).1 =
        .ok (DeviceTable.text
          ⟨⟨"a", "d", none, none⟩, [⟨"a", "d", none, none⟩, ⟨"b", "d", none, some "FB"⟩], built.rows⟩) := by
  have evaluated : ((Catalog.read {} ⟨8, 8, 14, by decide⟩ "LW_QB -replace_string Q=A\n").toOption.bind fun catalog =>
      (DeviceTable.build {} catalog ⟨"b", "d", none, some "FB"⟩ [] (MacroTable.addText {} "#define LW_AB 0x10\n")
        ).toOption.map fun built =>
          (decide catalog.Unnamed, built.rows.map fun row => row.alternatives.map Alternative.expression)) =
      some (true, [["LW_AB", "LW_AB(0)"]]) := by
    decide +kernel
  obtain ⟨catalog, accepted, evaluated⟩ := Option.bind_eq_some_iff.mp evaluated
  obtain ⟨built, done, evaluated⟩ := Option.map_eq_some_iff.mp evaluated
  rw [Outcome.toOption_eq_some] at accepted done
  obtain ⟨unnamed, expressions⟩ := Prod.mk.inj evaluated
  have listed : pairAndThird.devices[1]? = some ⟨"b", "d", none, some "FB"⟩ := rfl
  obtain ⟨_, headers, _, texts⟩ :=
    stub_hides_no_row listed (by decide) (of_decide_eq_true unnamed)
  obtain ⟨stub, table⟩ := texts {} [] _ built {} (by decide +kernel) done
  exact ⟨catalog, built, accepted, by decide, of_decide_eq_true unnamed, headers singleHeader "drivers" _, done,
    expressions, stub, table⟩

end Request
end RegisterCatalog
