import RegisterCatalog.Catalog.Reader
import RegisterCatalog.Proofs.Outcome
import RegisterCatalog.Resolution.Indexing

/-! Names below an array of registers. A field or value stands for the first element of its address: its names are
specialised like those of that element. Where no rule replaces an underscore, this can be done piece by piece, whatever
the rules put in, because an occurrence that is replaced never goes across an underscore. -/

namespace RegisterCatalog

namespace Chars

variable {old : List Char} {c : Char}

theorem isPrefixOf_append_cons (absent : c ∉ old) (left right : List Char) :
    old.isPrefixOf (left ++ c :: right) = old.isPrefixOf left := by
  induction old generalizing left with
  | nil => cases left <;> rfl
  | cons first rest ih =>
    rw [List.mem_cons, not_or] at absent
    cases left with
    | nil => simp [List.isPrefixOf, Ne.symm absent.1]
    | cons d others => simp [List.isPrefixOf, ih absent.2]

theorem replaceFrom_append_cons {left : List Char} (new right : List Char) (absent : c ∉ old) (occurs : old ≠ [])
    {covered : Nat} (inside : covered ≤ left.length) :
    replaceFrom old new covered (left ++ c :: right) =
      replaceFrom old new covered left ++ c :: replaceFrom old new 0 right := by
  induction left generalizing covered with
  | nil =>
    cases Nat.le_zero.mp inside
    have apart : old.isPrefixOf (c :: right) = false := by
      have short := isPrefixOf_append_cons absent [] right
      rw [List.nil_append] at short
      cases old with
      | nil => exact absurd rfl occurs
      | cons first rest => exact short
    rw [List.nil_append, replaceFrom, replaceFrom, apart]
    rfl
  | cons d rest ih =>
    cases covered with
    | succ covered => exact ih (Nat.le_of_succ_le_succ inside)
    | zero =>
      have same := isPrefixOf_append_cons absent (d :: rest) right
      rw [List.cons_append] at same
      rw [List.cons_append, replaceFrom, replaceFrom, same]
      split
      next found =>
        have within : old.length - 1 ≤ rest.length := by
          have length := (List.isPrefixOf_iff_prefix.mp found).length_le
          rw [List.length_cons] at length
          omega
        rw [ih within, List.append_assoc]
      next => rw [ih (Nat.zero_le _), List.cons_append]

/-- A character that does not occur in the old text keeps what is replaced before it apart from what is replaced
after it. -/
theorem replace_append_cons (new : List Char) (absent : c ∉ old) (left right : List Char) :
    replace old new (left ++ c :: right) = replace old new left ++ c :: replace old new right := by
  unfold replace
  split
  · simp
  next some =>
    rw [List.isEmpty_iff] at some
    exact replaceFrom_append_cons new right absent some (Nat.zero_le _)

end Chars

/-- Changes the two sides of an underscore independently of each other. -/
def KeepsUnderscores (change : String → String) : Prop :=
  ∀ left right, change (left ++ "_" ++ right) = change left ++ "_" ++ change right

theorem keepsUnderscores_replace {old : String} (new : String) (absent : '_' ∉ old.toList) :
    KeepsUnderscores (Text.replace old new) := by
  intro left right
  apply String.toList_inj.mp
  simpa [Text.replace] using Chars.replace_append_cons new.toList absent left.toList right.toList

theorem keepsUnderscores_foldl {step : String → ρ → String} {rules : List ρ}
    (each : ∀ rule ∈ rules, KeepsUnderscores fun name => step name rule) :
    KeepsUnderscores fun name => rules.foldl step name := by
  induction rules with
  | nil => exact fun _ _ => rfl
  | cons rule rest ih =>
    rw [List.forall_mem_cons] at each
    intro left right
    have first := each.1 left right
    dsimp only at first ⊢
    rw [List.foldl_cons, first]
    exact ih each.2 _ _

theorem Dimension.keepsUnderscores_applyTo {dimension : Dimension} (index : Nat)
    (free : ∀ old new, dimension.rule = .substitute old new → '_' ∉ old.toList) :
    KeepsUnderscores fun name => applyTo name (dimension, index) := by
  unfold applyTo
  cases rule : dimension.rule with
  | argument => exact fun _ _ => rfl
  | stride old symbol => exact fun _ _ => rfl
  | substitute old new => exact keepsUnderscores_replace _ (free old new rule)

/-- The texts that are replaced in the names of an entry: for the device, and for the elements of an array. -/
def Entry.replacedParts (entry : Entry) : List String :=
  entry.deviceRules.map DeviceRule.old ++ entry.dimensions.filterMap fun dimension =>
    match dimension.rule with
    | .substitute old _ => some old
    | _ => none

theorem Entry.zip_firstTuple (entry : Entry) :
    entry.dimensions.zip entry.firstTuple = entry.dimensions.map fun dimension => (dimension, 0) := by
  unfold firstTuple
  induction entry.dimensions with
  | nil => rfl
  | cons dimension rest ih => rw [List.length_cons, List.replicate_succ, List.zip_cons_cons, ih, List.map_cons]

namespace Variant

def firstName (variant : Variant) (device : Device) (name : String) : String :=
  (variant.entry.indexName variant.entry.firstTuple (variant.deviceName device name)).name

theorem keepsUnderscores_deviceName {variant : Variant} (device : Device)
    (free : ∀ part ∈ variant.address.replacedParts, '_' ∉ part.toList) :
    KeepsUnderscores (variant.deviceName device) := by
  unfold Entry.replacedParts at free
  rw [List.forall_mem_append, List.forall_mem_map] at free
  have rules : KeepsUnderscores fun name =>
      variant.address.deviceRules.foldl (fun name rule => rule.apply device.name name) name :=
    keepsUnderscores_foldl fun rule member => keepsUnderscores_replace _ (free.1 rule member)
  have substitutes : KeepsUnderscores fun name =>
      (variant.address.dimensions.map fun dimension => (dimension, 0)).foldl Dimension.applyTo name := by
    apply keepsUnderscores_foldl
    rw [List.forall_mem_map]
    intro dimension member
    apply Dimension.keepsUnderscores_applyTo
    intro old new rule
    exact free.2 old (List.mem_filterMap.mpr ⟨dimension, member, by rw [rule]⟩)
  intro left right
  have first := rules left right
  unfold deviceName
  dsimp only at first ⊢
  split
  · exact first
  · rw [first]
    exact substitutes _ _

variable {settings : Settings} {address entry : Entry} {above below : Variant}

/-- The names of a field or value are specialised like those of the first element of its address, and if no rule of
the address replaces an underscore, the part of the address and the rest are specialised on their own. -/
theorem lower_names_follow_first_element (top : address.level = .address) (lower : entry.level ≠ .address)
    (own : above ∈ address.variants settings address) (under : below ∈ Entry.variants settings address entry)
    (device : Device) :
    (∀ name, below.deviceName device name = above.firstName device name) ∧
    ((∀ part ∈ address.replacedParts, '_' ∉ part.toList) → ∀ start rest,
      below.deviceName device (start ++ "_" ++ rest) =
        above.firstName device start ++ "_" ++ below.deviceName device rest) := by
  obtain ⟨itself, alone⟩ := Entry.origin_of_variants own
  obtain ⟨rfl, shared⟩ := Entry.origin_of_variants under
  have same : ∀ name, below.deviceName device name = above.firstName device name := by
    intro name
    rw [firstName, Entry.indexName, itself, address.zip_firstTuple, deviceName, deviceName, itself, alone, shared,
      if_pos top, if_neg lower]
  refine ⟨same, ?_⟩
  intro free start rest
  rw [← same start]
  exact keepsUnderscores_deviceName device (shared ▸ free) start rest

/-- What the device rule puts in is replaced once more for the array. -/
theorem lower_names_follow_first_element_twice_replaced :
    ∃ layout catalog address entry, ∃ above ∈ Entry.variants {} address address, ∃ below ∈ Entry.variants {} address entry,
      ({} : Settings).layout = .ok layout ∧
      Catalog.read {} layout
        "LW_GPCx_CHIP -replace_string CHIP=GPCx_\x7bDEVICE\x7d -replace_array GPCx=GPC%d 8\n  _CHIP\n" = .ok catalog ∧
      catalog.entries[0]? = some address ∧ catalog.entries[1]? = some entry ∧
      catalog.addressOf 1 entry = address ∧ address.level = .address ∧ entry.level ≠ .address ∧
      (∀ part ∈ address.replacedParts, '_' ∉ part.toList) ∧
      below.deviceName ⟨"gp102", "pascal", none, none⟩ "LW_GPCx_CHIP_CHIP" =
        above.firstName ⟨"gp102", "pascal", none, none⟩ "LW_GPCx_CHIP_CHIP" ∧
      below.deviceName ⟨"gp102", "pascal", none, none⟩ "LW_GPCx_CHIP_CHIP" =
        "LW_GPC0_GPC0_GP102" ++ "_" ++ below.deviceName ⟨"gp102", "pascal", none, none⟩ "CHIP" := by
  have computed : ((Catalog.read {} ⟨8, 8, 14, by decide⟩
      "LW_GPCx_CHIP -replace_string CHIP=GPCx_\x7bDEVICE\x7d -replace_array GPCx=GPC%d 8\n  _CHIP\n").toOption.bind
        fun catalog => catalog.entries[0]?.bind fun address => catalog.entries[1]?.bind fun entry =>
          (Entry.variants {} address address).head?.bind fun above =>
            (Entry.variants {} address entry).head?.map fun _ =>
              ((address.level, entry.level, decide (catalog.addressOf 1 entry = address)), address.replacedParts,
                above.firstName ⟨"gp102", "pascal", none, none⟩ "LW_GPCx_CHIP")) =
      some ((.address, .field, true), ["CHIP", "GPCx"], "LW_GPC0_GPC0_GP102") := by
    decide +kernel
  obtain ⟨catalog, accepted, computed⟩ := Option.bind_eq_some_iff.mp computed
  obtain ⟨address, upper, computed⟩ := Option.bind_eq_some_iff.mp computed
  obtain ⟨entry, stored, computed⟩ := Option.bind_eq_some_iff.mp computed
  obtain ⟨above, own, computed⟩ := Option.bind_eq_some_iff.mp computed
  obtain ⟨below, under, computed⟩ := Option.map_eq_some_iff.mp computed
  rw [Outcome.toOption_eq_some] at accepted
  simp only [Prod.mk.injEq, decide_eq_true_eq] at computed
  obtain ⟨⟨top, level, found⟩, parts, start⟩ := computed
  have lower : entry.level ≠ .address := by
    rw [level]
    decide
  have free : ∀ part ∈ address.replacedParts, '_' ∉ part.toList := by
    rw [parts]
    decide
  have member := List.mem_of_mem_head? own
  have inside := List.mem_of_mem_head? under
  obtain ⟨same, apart⟩ := lower_names_follow_first_element top lower member inside ⟨"gp102", "pascal", none, none⟩
  have split := apart free "LW_GPCx_CHIP" "CHIP"
  rw [start] at split
  exact ⟨_, catalog, address, entry, above, member, below, inside, rfl, accepted, upper, stored, found, top, lower, free,
    same _, split⟩

end Variant
end RegisterCatalog
