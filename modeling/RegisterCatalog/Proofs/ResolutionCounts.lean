import Mathlib
import RegisterCatalog.Proofs.Contributions
import RegisterCatalog.Proofs.TableRows

/-! What the counters of a run tell about its table. Each variant is counted when it is resolved, its targets and walks along
the way. If no resolution fails, the counters are sums over the rows of the table and over the variants, whether or not these
have rows. -/

namespace RegisterCatalog
open Outcome

/-- How many walks a name takes for a tuple: to the name, and for an address to its privilege mask before. -/
def Level.walksPerName (level : Level) : Nat := if level = .address then 2 else 1

theorem Entry.length_walks (entry : Entry) (names : List HardwareName) (tuple : List Nat) :
    (entry.walks names tuple).length = names.length * entry.level.walksPerName := by
  unfold walks Level.walksPerName
  split <;> simp [List.length_flatMap]

namespace MacroTable

variable {table : MacroTable} {entry : Entry} {names : List HardwareName}

theorem element_resolved {tuple : List Nat} {known : HardwareName} {isAlias : Bool} {made : Contribution}
    (done : table.contribution entry tuple known isAlias = .ok made) :
    ∃ found?, table.resolve (entry.indexName tuple known.name).name [] = .ok found? := by
  obtain ⟨_, _, done⟩ := bind_eq_ok.mp done
  obtain ⟨_, looked, _⟩ := bind_eq_ok.mp done
  obtain ⟨found?, walked, _⟩ := bind_eq_ok.mp looked
  exact ⟨found?, walked⟩

theorem fails_of_resolve {name : String} {suffixes : List String} {found? : Option Destination}
    (walked : table.resolve name suffixes = .ok found?) : table.fails (name, suffixes) = false := by
  simp [fails, walked, Except.isOk, Except.toBool]

/-- Where every name has contributed, no walk has failed. -/
theorem Contributed.walks_succeed {tuple : List Nat} {found : List Contribution}
    (contributed : table.Contributed entry names tuple found) :
    ∀ walk ∈ entry.walks names tuple, table.fails walk = false := by
  intro walk member
  obtain ⟨known, inside, taken⟩ := List.mem_flatMap.mp member
  obtain ⟨place, here⟩ := List.mem_iff_getElem?.mp inside
  have numbered : (known, place) ∈ names.zipIdx := List.mem_zipIdx_iff_getElem?.mpr here
  obtain ⟨made, _, done⟩ := exists_result_of_mem contributed numbered
  obtain ⟨_, walked⟩ := element_resolved done
  have own := fails_of_resolve walked
  split at taken
  next address =>
    obtain ⟨_, led, _⟩ := privilege_resolved done address
    rcases List.mem_pair.mp taken with rfl | rfl
    · exact fails_of_resolve led
    · exact own
  next =>
    cases List.mem_singleton.mp taken
    exact own

theorem countWalks_of_succeed {tuples : List (List Nat)}
    (succeed : ∀ tuple ∈ tuples, ∀ walk ∈ entry.walks names tuple, table.fails walk = false) :
    table.countWalks entry names tuples = tuples.length * (names.length * entry.level.walksPerName) := by
  induction tuples with
  | nil => simp [countWalks]
  | cons tuple rest ih =>
    rw [List.forall_mem_cons] at succeed
    have all := List.findIdx?_eq_none_iff.mpr succeed.1
    simp only [countWalks, all, ih succeed.2, Entry.length_walks, List.length_cons]
    ring

end MacroTable

namespace Variant

/-- The walks that resolving a variant takes: every name is looked up for every tuple of indices. -/
def walkCount (variant : Variant) : Nat :=
  variant.names.length * variant.entry.limits.prod * variant.entry.level.walksPerName

variable {device : Device} {table : MacroTable} {variant : Variant}

theorem resolve_walks {targets : List Target} (done : variant.targets device table = .ok targets) :
    (variant.resolve device table).walks = variant.walkCount := by
  have succeed : ∀ tuple ∈ indexTuples variant.entry.limits,
      ∀ walk ∈ variant.entry.walks (variant.deviceNames device) tuple, table.fails walk = false := by
    intro tuple below
    obtain ⟨_, contributed⟩ := contributed_of_targets done below
    exact contributed.walks_succeed
  have count := MacroTable.countWalks_of_succeed succeed
  rw [length_indexTuples, deviceNames, List.length_map] at count
  rw [walkCount, resolve, deviceNames, count]
  ring

end Variant

namespace Tally

variable {device : Device} {table : MacroTable}

theorem add_resolve {variant : Variant} {targets : List Target} (tally : Tally)
    (done : variant.targets device table = .ok targets) :
    tally.add (variant.resolve device table) =
      { variants := tally.variants + 1
        omitted := tally.omitted + if (variant.rows device table).isEmpty then 1 else 0
        targets := tally.targets + (variant.rows device table).length
        alternatives := tally.alternatives + ((variant.rows device table).map fun row => row.alternatives.length).sum
        privileged := tally.privileged + (variant.rows device table).countP fun row => row.slot.isPrivilege
        walks := tally.walks + variant.walkCount } := by
  have walks := Variant.resolve_walks done
  have rows : variant.rows device table = targets.map (TableRow.ofTarget variant) := by
    rw [Variant.rows, done]
    rfl
  have outcome : (variant.resolve device table).outcome = .ok targets := done
  simp only [add, outcome, walks, rows]
  simp [List.length_flatMap, TableRow.ofTarget, Function.comp_def, List.countP_map]

/-- The counters for a run over these variants. -/
def ofVariants (device : Device) (table : MacroTable) (variants : List Variant) : Tally :=
  let rows := variants.flatMap (Variant.rows device table)
  { variants := variants.length
    omitted := variants.countP fun variant => (variant.rows device table).isEmpty
    targets := rows.length
    alternatives := (rows.map fun row => row.alternatives.length).sum
    privileged := rows.countP fun row => row.slot.isPrivilege
    walks := (variants.map Variant.walkCount).sum }

/-- Counting in the resolutions of some variants after others is counting both together. -/
theorem foldl_add {variants : List Variant} (earlier : List Variant)
    (resolved : ∀ variant ∈ variants, ∃ targets, variant.targets device table = .ok targets) :
    (variants.map fun variant => variant.resolve device table).foldl add (ofVariants device table earlier) =
      ofVariants device table (earlier ++ variants) := by
  induction variants generalizing earlier with
  | nil => simp
  | cons variant rest ih =>
    rw [List.forall_mem_cons] at resolved
    obtain ⟨⟨targets, done⟩, later⟩ := resolved
    have next : (ofVariants device table earlier).add (variant.resolve device table) =
        ofVariants device table (earlier ++ [variant]) := by
      rw [add_resolve _ done]
      simp [ofVariants, List.countP_append, List.countP_cons]
    rw [List.map_cons, List.foldl_cons, next, ih _ later, List.append_assoc, List.singleton_append]

end Tally

namespace DeviceTable

variable {settings : Settings} {catalog : Catalog} {device : Device} {sharing : List Device} {table : MacroTable}
  {built : DeviceTable}

/-- The counters of a run that ends with a table are told by the table and the variants of the catalog. Rows, their
alternatives and the rows for privilege masks are counted one by one, variants whether or not they have rows, and every
name of a variant was looked up for every tuple of indices, in an address once more for its privilege mask. -/
theorem counters_of_build (done : build settings catalog device sharing table = .ok built) :
    built.rows = (catalog.variants settings).flatMap (Variant.rows device table) ∧
    Tally.ofResolutions (catalog.resolve settings device table) =
      { variants := (catalog.variants settings).length
        omitted := (catalog.variants settings).countP fun variant => (variant.rows device table).isEmpty
        targets := built.rows.length
        alternatives := (built.rows.map fun row => row.alternatives.length).sum
        privileged := built.rows.countP fun row => row.slot.isPrivilege
        walks := ((catalog.variants settings).map fun variant =>
          variant.names.length * variant.entry.limits.prod * if variant.entry.level = .address then 2 else 1).sum } := by
  obtain ⟨rows, resolved, done⟩ := bind_eq_ok.mp done
  cases done
  have all := Resolution.untilFailure_eq_map resolved
  have rows := Resolution.rows_untilFailure resolved
  refine ⟨rows, ?_⟩
  have counted := Tally.foldl_add [] all.1
  rw [Tally.ofResolutions, Catalog.resolve, all.2]
  rw [List.nil_append] at counted
  subst rows
  exact counted

/-- An array of two elements with a privilege mask, and another name that leads to it. -/
def maskedArray : MacroTable where
  definitions := .ofList [("LW_A", Definition.mk "LW_B" "LW_B" 0), ("LW_B", .mk "4" "4" 1),
    ("LW_B__SIZE_1", .mk "2" "2" 0), ("LW_B__PRIV_LEVEL_MASK", .mk "8" "8" 0)]

/-- The field and the second address have no rows, but their walks count. -/
theorem counters_of_build_masked_array :
    ∃ layout catalog built, ({} : Settings).layout = .ok layout ∧
      Catalog.read {} layout "LW_A 2 -alias LW_B\n  _F\nLW_C\n" = .ok catalog ∧
      build {} catalog ⟨"gp100", "pascal", none, none⟩ [] maskedArray = .ok built ∧
      Tally.ofResolutions (catalog.resolve {} ⟨"gp100", "pascal", none, none⟩ maskedArray) =
        ⟨3, 2, 5, 9, 2, 2 * 2 * 2 + 2 * 1 * 1 + 1 * 1 * 2⟩ := by
  have seen : ((Catalog.read {} ⟨8, 8, 14, by decide⟩ "LW_A 2 -alias LW_B\n  _F\nLW_C\n").toOption.bind fun catalog =>
      (build {} catalog ⟨"gp100", "pascal", none, none⟩ [] maskedArray).toOption.map fun built =>
        ({ variants := (catalog.variants {}).length
           omitted := (catalog.variants {}).countP fun variant =>
             (variant.rows ⟨"gp100", "pascal", none, none⟩ maskedArray).isEmpty
           targets := built.rows.length
           alternatives := (built.rows.map fun row => row.alternatives.length).sum
           privileged := built.rows.countP fun row => row.slot.isPrivilege
           walks := ((catalog.variants {}).map fun variant =>
             variant.names.length * variant.entry.limits.prod * if variant.entry.level = .address then 2 else 1).sum } :
          Tally)) = some ⟨3, 2, 5, 9, 2, 12⟩ := by
    decide +kernel
  obtain ⟨catalog, accepted, seen⟩ := Option.bind_eq_some_iff.mp seen
  obtain ⟨built, done, seen⟩ := Option.map_eq_some_iff.mp seen
  rw [toOption_eq_some] at accepted done
  exact ⟨_, catalog, built, rfl, accepted, done, (counters_of_build done).2.trans seen⟩

end DeviceTable
end RegisterCatalog
