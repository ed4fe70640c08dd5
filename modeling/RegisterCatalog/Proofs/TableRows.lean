import RegisterCatalog.Proofs.Numbering
import RegisterCatalog.Proofs.PrintedKeys
import RegisterCatalog.Proofs.TargetSlots

/-! The rows of a device table are unambiguous. Every entry has its own run of rows, and no two rows
answer the same question in the same environment. -/

namespace RegisterCatalog
open Outcome

/-- Where a program runs that looks registers up. -/
inductive Environment
  | physical
  | virtual
  deriving DecidableEq

def Access.serves : Access → Environment → Bool
  | .any, _ => true
  | .physical, environment => environment = .physical
  | .virtual, environment => environment = .virtual

namespace Variant

/-- The rows of a variant that can be resolved. -/
def rows (device : Device) (table : MacroTable) (variant : Variant) : List TableRow :=
  ((variant.targets device table).toOption.getD []).map (TableRow.ofTarget variant)

variable {device : Device} {table : MacroTable} {variant : Variant}

theorem row_of_variant {row : TableRow} (member : row ∈ variant.rows device table) :
    row.id = variant.entry.id ∧ row.symbol = variant.entry.symbol ∧ row.access = variant.access := by
  obtain ⟨target, _, rfl⟩ := List.mem_map.mp member
  exact ⟨rfl, rfl, rfl⟩

theorem rows_slots_nodup (device : Device) (table : MacroTable) (variant : Variant) :
    ((variant.rows device table).map TableRow.slot).Nodup := by
  unfold rows
  cases done : variant.targets device table with
  | error cycle => exact List.nodup_nil
  | ok targets =>
    have fill := targets_fill done
    rw [List.map_map]
    exact fill.ordered.nodup variant.entry.plannedSlots_nodup

end Variant

theorem Resolution.rows_cons {device : Device} {table : MacroTable} {variant : Variant} {rest : List Variant}
    {rows : List TableRow} (done : Resolution.rows (untilFailure device table (variant :: rest)) = .ok rows) :
    ∃ targets later, variant.targets device table = .ok targets ∧
      untilFailure device table (variant :: rest) = variant.resolve device table :: untilFailure device table rest ∧
      Resolution.rows (untilFailure device table rest) = .ok later ∧ rows = variant.rows device table ++ later := by
  cases outcome : variant.targets device table with
  | error cycle => simp [untilFailure, Variant.resolve, outcome, Resolution.rows, bind, Except.bind] at done
  | ok targets =>
    have first : untilFailure device table (variant :: rest) =
        variant.resolve device table :: untilFailure device table rest := by
      simp only [untilFailure, Variant.resolve, outcome]
    rw [first] at done
    obtain ⟨_, resolved, done⟩ := bind_eq_ok.mp done
    obtain ⟨later, others, done⟩ := bind_eq_ok.mp done
    cases done
    refine ⟨targets, later, rfl, first, others, ?_⟩
    cases outcome.symm.trans resolved
    rw [Variant.rows, outcome]
    rfl

/-- A table holds the rows of all its variants, one after the other. -/
theorem Resolution.rows_untilFailure {device : Device} {table : MacroTable} {variants : List Variant}
    {rows : List TableRow} (done : Resolution.rows (untilFailure device table variants) = .ok rows) :
    rows = variants.flatMap (Variant.rows device table) := by
  induction variants generalizing rows with
  | nil =>
    cases done
    rfl
  | cons variant rest ih =>
    obtain ⟨_, later, _, _, others, rfl⟩ := Resolution.rows_cons done
    rw [List.flatMap_cons, ih others]

theorem Resolution.untilFailure_eq_map {device : Device} {table : MacroTable} {variants : List Variant}
    {rows : List TableRow} (done : Resolution.rows (untilFailure device table variants) = .ok rows) :
    (∀ variant ∈ variants, ∃ targets, variant.targets device table = .ok targets) ∧
      untilFailure device table variants = variants.map fun variant => variant.resolve device table := by
  induction variants generalizing rows with
  | nil => exact ⟨by simp, rfl⟩
  | cons variant rest ih =>
    obtain ⟨targets, later, resolved, first, others, _⟩ := Resolution.rows_cons done
    obtain ⟨all, same⟩ := ih others
    exact ⟨List.forall_mem_cons.mpr ⟨⟨targets, resolved⟩, all⟩, by rw [first, same, List.map_cons]⟩

/-- Both rows answer to one id and slot in one environment. -/
def TableRow.Clash (first second : TableRow) : Prop :=
  first.id = second.id ∧ first.slot = second.slot ∧
    ∃ environment, first.access.serves environment ∧ second.access.serves environment

theorem TableRow.clash_of_access_eq {first second : TableRow} (id : first.id = second.id)
    (slot : first.slot = second.slot) (access : first.access = second.access) : first.Clash second := by
  refine ⟨id, slot, ?_⟩
  rw [access]
  cases second.access with
  | any | physical => exact ⟨.physical, rfl, rfl⟩
  | virtual => exact ⟨.virtual, rfl, rfl⟩

/-- Rows for the physical environment stand before those for the virtual one. -/
def TableRow.InOrder (earlier later : TableRow) : Prop :=
  earlier.access = later.access ∨ earlier.access = .physical ∧ later.access = .virtual

namespace Entry

variable {settings : Settings} {address entry : Entry}

theorem variants_access {variant : Variant} (member : variant ∈ variants settings address entry) :
    variant.entry = entry ∧ (variant.access = .any ↔ address.imageFor? settings = none) := by
  unfold variants at member
  split at member
  next alone =>
    cases List.mem_singleton.mp member
    exact ⟨rfl, by simp [alone, access]⟩
  next image imaged =>
    dsimp only at member
    split at member
    · cases List.mem_singleton.mp member
      exact ⟨rfl, by simp [imaged]⟩
    · rcases List.mem_pair.mp member with rfl | rfl <;> exact ⟨rfl, by simp [imaged]⟩

theorem variants_ordered (settings : Settings) (address entry : Entry) :
    (variants settings address entry).Pairwise fun earlier later =>
      earlier.access = .physical ∧ later.access = .virtual := by
  unfold variants
  split
  · simp
  · dsimp only
    split <;> simp

/-- The rows of an entry on a device. -/
def rows (settings : Settings) (device : Device) (table : MacroTable) (address entry : Entry) : List TableRow :=
  (variants settings address entry).flatMap (Variant.rows device table)

variable {device : Device} {table : MacroTable}

theorem row_of_entry {row : TableRow} (member : row ∈ rows settings device table address entry) :
    row.id = entry.id ∧ row.symbol = entry.symbol ∧ (row.access = .any ↔ address.imageFor? settings = none) := by
  obtain ⟨variant, expanded, inside⟩ := List.mem_flatMap.mp member
  obtain ⟨rfl, access⟩ := variants_access expanded
  obtain ⟨id, symbol, same⟩ := Variant.row_of_variant inside
  exact ⟨id, symbol, by rw [same, access]⟩

theorem rows_inOrder (settings : Settings) (device : Device) (table : MacroTable) (address entry : Entry) :
    (rows settings device table address entry).Pairwise TableRow.InOrder := by
  refine List.pairwise_flatMap.mpr ⟨?_, (variants_ordered settings address entry).imp ?_⟩
  · intro variant _
    apply List.pairwise_of_forall_mem_list
    intro first here second there
    exact .inl ((Variant.row_of_variant here).2.2.trans (Variant.row_of_variant there).2.2.symm)
  · intro physical virtual accesses first here second there
    obtain ⟨left, right⟩ := accesses
    exact .inr ⟨(Variant.row_of_variant here).2.2.trans left, (Variant.row_of_variant there).2.2.trans right⟩

theorem rows_apart (settings : Settings) (device : Device) (table : MacroTable) (address entry : Entry) :
    (rows settings device table address entry).Pairwise fun first second => ¬ first.Clash second := by
  refine List.pairwise_flatMap.mpr ⟨?_, (variants_ordered settings address entry).imp ?_⟩
  · intro variant _
    apply (List.pairwise_map.mp (Variant.rows_slots_nodup device table variant)).imp
    intro first second different clash
    exact different clash.2.1
  · intro physical virtual accesses first here second there clash
    obtain ⟨left, right⟩ := accesses
    obtain ⟨_, _, environment, one, two⟩ := clash
    rw [(Variant.row_of_variant here).2.2, left] at one
    rw [(Variant.row_of_variant there).2.2, right] at two
    cases environment <;> simp [Access.serves] at one two

end Entry

namespace Catalog

variable {settings : Settings} {layout : Layout} {text : String} {catalog : Catalog}

theorem ids_nodup (sized : settings.layout = .ok layout) (accepted : read settings layout text = .ok catalog) :
    (catalog.toList.map Entry.id).Nodup := by
  rw [List.Nodup, List.pairwise_map, List.pairwise_iff_getElem]
  intro first second inside within before same
  have here : catalog.entries[first]? = some catalog.toList[first] := by simp [toList]
  have there : catalog.entries[second]? = some catalog.toList[second] := by simp [toList]
  exact Nat.ne_of_lt before (place_eq_of_id_eq sized accepted here there same)

end Catalog

namespace DeviceTable
open Catalog

/-- The rows that a program finds for an id and a slot. -/
def lookup (built : DeviceTable) (id : UInt32) (slot : Slot) (environment : Environment) : List TableRow :=
  built.rows.filter fun row => row.id = id ∧ row.slot = slot ∧ row.access.serves environment

variable {settings conventions : Settings} {layout : Layout} {text : String} {catalog : Catalog}
  {device : Device} {sharing : List Device} {table : MacroTable} {built : DeviceTable}

/-- The rows of a table are the runs of the entries, in the order of the catalog. -/
theorem rows_of_build (done : build conventions catalog device sharing table = .ok built) :
    built.rows = catalog.toList.zipIdx.flatMap fun (entry, place) =>
      Entry.rows conventions device table (catalog.addressOf place entry) entry := by
  obtain ⟨rows, resolved, done⟩ := bind_eq_ok.mp done
  cases done
  rw [Resolution.rows_untilFailure resolved, Catalog.variants, List.flatMap_assoc]
  rfl

theorem rows_apart (sized : settings.layout = .ok layout) (accepted : read settings layout text = .ok catalog)
    (done : build conventions catalog device sharing table = .ok built) :
    built.rows.Pairwise fun first second => ¬ first.Clash second := by
  rw [rows_of_build done]
  refine List.pairwise_flatMap.mpr ⟨fun _ _ => Entry.rows_apart .., ?_⟩
  have distinct := ids_nodup sized accepted
  rw [← List.zipIdx_map_fst 0 catalog.toList, List.map_map, List.Nodup, List.pairwise_map] at distinct
  apply distinct.imp
  intro one two different first here second there clash
  apply different
  rw [Function.comp_apply, Function.comp_apply, ← (Entry.row_of_entry here).1, ← (Entry.row_of_entry there).1]
  exact clash.1

theorem access_any_of_id_eq (sized : settings.layout = .ok layout)
    (accepted : read settings layout text = .ok catalog)
    (done : build conventions catalog device sharing table = .ok built) {first second : TableRow}
    (here : first ∈ built.rows) (there : second ∈ built.rows) (same : first.id = second.id) :
    first.access = .any ↔ second.access = .any := by
  rw [rows_of_build done] at here there
  obtain ⟨⟨one, place⟩, stored, inside⟩ := List.mem_flatMap.mp here
  obtain ⟨⟨two, other⟩, kept, within⟩ := List.mem_flatMap.mp there
  have oneStored : catalog.entries[place]? = some one := by
    simpa [toList] using List.mem_zipIdx_iff_getElem?.mp stored
  have twoStored : catalog.entries[other]? = some two := by
    simpa [toList] using List.mem_zipIdx_iff_getElem?.mp kept
  have oneRow := Entry.row_of_entry inside
  have twoRow := Entry.row_of_entry within
  cases place_eq_of_id_eq sized accepted oneStored twoStored (oneRow.1.symm.trans (same.trans twoRow.1))
  cases Option.some.inj (oneStored.symm.trans twoStored)
  rw [oneRow.2.2, twoRow.2.2]

private theorem forall₂_zipIdx {related : α → β → Prop} {items : List α} {f : α × Nat → β}
    (all : ∀ item, related item.1 (f item)) : List.Forall₂ related items (items.zipIdx.map f) := by
  have pairs : List.Forall₂ related (items.zipIdx.map Prod.fst) (items.zipIdx.map f) :=
    List.forall₂_map_left_iff.mpr (List.forall₂_map_right_iff.mpr (List.forall₂_same.mpr fun item _ => all item))
  rwa [List.zipIdx_map_fst] at pairs

theorem rows_by_entry (done : build conventions catalog device sharing table = .ok built) :
    ∃ runs, built.rows = runs.flatten ∧
      List.Forall₂ (fun entry run => (∀ row ∈ run, row.id = entry.id ∧ row.symbol = entry.symbol) ∧
        run.Pairwise TableRow.InOrder) catalog.toList runs := by
  refine ⟨_, (rows_of_build done).trans List.flatMap_def, forall₂_zipIdx ?_⟩
  intro item
  refine ⟨?_, Entry.rows_inOrder ..⟩
  intro row member
  obtain ⟨id, symbol, _⟩ := Entry.row_of_entry member
  exact ⟨id, symbol⟩

theorem lookup_length_le_one (apart : built.rows.Pairwise fun first second => ¬ first.Clash second) (id : UInt32)
    (slot : Slot) (environment : Environment) : (built.lookup id slot environment).length ≤ 1 := by
  have matching : ∀ row ∈ built.lookup id slot environment,
      row.id = id ∧ row.slot = slot ∧ row.access.serves environment := by
    intro row member
    simpa using (List.mem_filter.mp member).2
  have few : (built.lookup id slot environment).Pairwise fun first second => ¬ first.Clash second :=
    apart.filter _
  rcases found : built.lookup id slot environment with _ | ⟨first, _ | ⟨second, others⟩⟩
  · simp
  · simp
  · rw [found] at matching few
    obtain ⟨id, slot, serves⟩ := matching first (by simp)
    obtain ⟨sameId, sameSlot, servesToo⟩ := matching second (by simp)
    have clash : first.Clash second :=
      ⟨id.trans sameId.symm, slot.trans sameSlot.symm, environment, serves, servesToo⟩
    exact absurd clash (List.rel_of_pairwise_cons few List.mem_cons_self)

/-- No two rows of a table have the same id, slot and access, and they do not even look the same when
printed. An id is either for any environment or for single ones. Entries come in the order of the
catalog, the physical rows of an entry before the virtual ones. So a program that looks up an id and a
slot finds at most one row for its environment. -/
theorem build_unambiguous (sized : settings.layout = .ok layout)
    (accepted : read settings layout text = .ok catalog)
    (done : build conventions catalog device sharing table = .ok built) :
    (built.rows.map fun row => (row.id, row.slot, row.access)).Nodup ∧
    (∀ first ∈ built.rows, ∀ second ∈ built.rows, first.id = second.id →
      first.access = .any → second.access = .any) ∧
    (∃ runs, built.rows = runs.flatten ∧
      List.Forall₂ (fun entry run => (∀ row ∈ run, row.id = entry.id ∧ row.symbol = entry.symbol) ∧
        run.Pairwise TableRow.InOrder) catalog.toList runs) ∧
    (built.rows.map fun row => (Text.hexWord row.id, row.slot.index, row.access.constant)).Nodup ∧
    ∀ id slot environment, (built.lookup id slot environment).length ≤ 1 := by
  have apart := rows_apart sized accepted done
  refine ⟨?_, ?_, rows_by_entry done, ?_, lookup_length_le_one apart⟩
  · apply List.pairwise_map.mpr
    apply apart.imp
    intro first second distinct same
    simp only [Prod.mk.injEq] at same
    exact distinct (TableRow.clash_of_access_eq same.1 same.2.1 same.2.2)
  · intro first here second there same
    exact (access_any_of_id_eq sized accepted done here there same).mp
  · apply List.pairwise_map.mpr
    apply apart.imp
    intro first second distinct same
    simp only [Prod.mk.injEq] at same
    exact distinct (TableRow.clash_of_access_eq (Text.hexWord_injective same.1) (Slot.index_injective same.2.1)
      (Access.constant_injective same.2.2))

theorem build_unambiguous_virtual_array :
    ∃ layout catalog built, ({} : Settings).layout = .ok layout ∧
      read {} layout "LW_A 2 -virtual_export\n  _F\n" = .ok catalog ∧
      build {} catalog ⟨"gp100", "pascal", none, none⟩ []
        (MacroTable.addText {} "#define LW_A(i) 4\n#define LW_A__SIZE_1 2\n#define LW_VIRTUAL_A(i) 8\n#define LW_A_F 1:0\n")
        = .ok built ∧
      (built.rows.map fun row => (row.id, row.slot, row.access)) =
        [(0x40010000, .size 1, .physical), (0x40010000, .element [0], .physical),
          (0x40010000, .element [1], .physical), (0x40010000, .element [0], .virtual),
          (0x40010000, .element [1], .virtual), (0x80010100, .element [], .physical)] ∧
      (built.rows.map fun row => (Text.hexWord row.id, row.slot.index, row.access.constant)).Nodup ∧
      ∀ id slot environment, (built.lookup id slot environment).length ≤ 1 := by
  have keys : ((read {} ⟨8, 8, 14, by decide⟩ "LW_A 2 -virtual_export\n  _F\n").toOption.bind fun catalog =>
      (build {} catalog ⟨"gp100", "pascal", none, none⟩ []
        (MacroTable.addText {} "#define LW_A(i) 4\n#define LW_A__SIZE_1 2\n#define LW_VIRTUAL_A(i) 8\n#define LW_A_F 1:0\n")
        ).toOption.map fun built => built.rows.map fun row => (row.id, row.slot, row.access)) =
      some [(0x40010000, .size 1, .physical), (0x40010000, .element [0], .physical),
          (0x40010000, .element [1], .physical), (0x40010000, .element [0], .virtual),
          (0x40010000, .element [1], .virtual), (0x80010100, .element [], .physical)] := by
    decide +kernel
  obtain ⟨catalog, accepted, keys⟩ := Option.bind_eq_some_iff.mp keys
  obtain ⟨built, done, keys⟩ := Option.map_eq_some_iff.mp keys
  rw [Outcome.toOption_eq_some] at accepted done
  have unambiguous := build_unambiguous rfl accepted done
  exact ⟨_, catalog, built, rfl, accepted, done, keys, unambiguous.2.2.2.1, unambiguous.2.2.2.2⟩

end DeviceTable
end RegisterCatalog
