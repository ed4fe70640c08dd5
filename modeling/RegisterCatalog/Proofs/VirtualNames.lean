import RegisterCatalog.Proofs.PrimaryNames
import RegisterCatalog.Resolution.Variant

/-! Virtual registers. What an address says about its virtual register goes for everything below it, and the
first name of each entry there has an image, so no entry is left without its virtual variant. The image
only looks at how a name begins: it can also match a name that comes from a synonym of the
address which has no image itself. -/

namespace RegisterCatalog

theorem Text.startsWith_iff {start text : String} : Text.startsWith start text ↔ ∃ rest, text = start ++ rest := by
  rw [startsWith, List.isPrefixOf_iff_prefix]
  constructor
  · rintro ⟨chars, same⟩
    refine ⟨String.ofList chars, String.toList_inj.mp ?_⟩
    rw [String.toList_append, String.toList_ofList, same]
  · rintro ⟨rest, rfl⟩
    exact ⟨rest.toList, String.toList_append.symm⟩

/-- A name that goes on after an underscore: what it starts with either ends before the underscore, or reaches
behind it. -/
theorem Text.start_of_extended {upper path source rest : String} (same : upper ++ "_" ++ path = source ++ rest) :
    (∃ more, upper = source ++ more ∧ rest = more ++ "_" ++ path) ∨
      ∃ stem, source = upper ++ "_" ++ stem ∧ path = stem ++ rest := by
  have chars : upper.toList ++ '_' :: path.toList = source.toList ++ rest.toList := by
    simpa using congrArg String.toList same
  rcases List.append_eq_append_iff.mp chars with ⟨middle, longer, split⟩ | ⟨more, shorter, split⟩
  · cases middle with
    | nil =>
      refine .inl ⟨"", ?_, ?_⟩ <;> apply String.toList_inj.mp
      · simpa using longer.symm
      · simpa using split.symm
    | cons first stem =>
      obtain ⟨rfl, split⟩ := List.cons.inj split
      refine .inr ⟨String.ofList stem, ?_, ?_⟩ <;> apply String.toList_inj.mp
      · simpa using longer
      · simpa using split
  · refine .inl ⟨String.ofList more, ?_, ?_⟩ <;> apply String.toList_inj.mp
    · simpa using shorter
    · simpa using split

namespace VirtualImage

theorem of?_eq_some {image : VirtualImage} {name imaged : String} :
    image.of? name = some imaged ↔ ∃ rest, name = image.source ++ rest ∧ imaged = image.target ++ rest := by
  rw [of?, Option.map_eq_some_iff]
  apply exists_congr
  intro rest
  rw [Text.dropStart?_eq_some, eq_comm (a := imaged)]

/-- The second name stands for the first one in the virtual register. -/
def Maps (image : VirtualImage) (known shown : HardwareName) : Prop :=
  ∃ rest, known.name = image.source ++ rest ∧ shown.name = image.target ++ rest ∧ shown.domain = known.domain

end VirtualImage

namespace Entry
open Outcome

variable {settings : Settings}

theorem virtualNames_maps (entry : Entry) (image : VirtualImage) :
    List.Forall₂ image.Maps (entry.hardwareNames.filter fun known => Text.startsWith image.source known.name)
      (entry.virtualNames image) := by
  unfold virtualNames
  induction entry.hardwareNames with
  | nil => exact .nil
  | cons known others ih =>
    by_cases start : Text.startsWith image.source known.name
    · obtain ⟨rest, same⟩ := Text.startsWith_iff.mp start
      have imaged := VirtualImage.of?_eq_some.mpr ⟨rest, same, rfl⟩
      rw [List.filter_cons_of_pos (by simpa using start), List.filterMap_cons, imaged]
      exact .cons ⟨rest, same, rfl, rfl⟩ ih
    · have missing : image.of? known.name = none := by
        rw [Option.eq_none_iff_forall_ne_some]
        intro imaged found
        obtain ⟨rest, same, _⟩ := VirtualImage.of?_eq_some.mp found
        exact start (Text.startsWith_iff.mpr ⟨rest, same⟩)
      rw [List.filter_cons_of_neg (by simpa using start), List.filterMap_cons, missing]
      exact ih

theorem mem_virtualNames {entry : Entry} {image : VirtualImage} {shown : HardwareName} :
    shown ∈ entry.virtualNames image ↔ ∃ known ∈ entry.hardwareNames, image.Maps known shown := by
  simp only [virtualNames, List.mem_filterMap]
  apply exists_congr
  intro known
  apply and_congr_right
  intro _
  rw [Option.map_eq_some_iff]
  constructor
  · rintro ⟨name, found, rfl⟩
    obtain ⟨rest, same, made⟩ := VirtualImage.of?_eq_some.mp found
    exact ⟨rest, same, made, rfl⟩
  · rintro ⟨rest, same, made, domain⟩
    refine ⟨shown.name, VirtualImage.of?_eq_some.mpr ⟨rest, same, made⟩, ?_⟩
    rw [← domain]

/-- The virtual image that an entry gives, if any, leads to virtual names and replaces the own name of the entry
or the source prefix. -/
def Imaged (settings : Settings) (entry : Entry) : Prop :=
  ∀ image, entry.virtualImage? = some image → Text.startsWith settings.virtualPrefix image.target ∧
    (image.source = entry.name ∨ image.source = settings.sourcePrefix)

theorem Imaged.congr {before after : Entry} (imaged : before.Imaged settings) (name : after.name = before.name)
    (same : after.virtualImage? = before.virtualImage?) : after.Imaged settings := by
  unfold Imaged
  rw [same, name]
  exact imaged

theorem apply_imaged {before after : Entry} {directive : Directive} (imaged : before.Imaged settings)
    (done : apply settings before directive = .ok after) : after.Imaged settings := by
  rcases apply_cases done with ⟨_, same⟩ | ⟨domain, rfl⟩ | ⟨image, rfl, target, source⟩ | ⟨synonym, rfl⟩
  · exact imaged.congr (apply_keeps done).name same
  · exact imaged
  · intro other found
    cases found
    exact ⟨target, source⟩
  · have same : (before.addSynonym synonym).virtualImage? = before.virtualImage? := by
      rw [addSynonym_eq]
    exact imaged.congr (apply_keeps done).name same

theorem ofWords_imaged {layout : Layout} {line : Nat} {level : Level} {above? : Option Above}
    {previous? : Option Entry} {word : String} {rest : List String} {entry : Entry}
    (done : ofWords settings layout line level above? previous? word rest = .ok entry) : entry.Imaged settings := by
  obtain ⟨declared, directives, first, _, done, _⟩ := ofWords_steps done
  have plain : declared.virtualImage? = none := by
    cases above? with
    | none =>
      obtain ⟨_, _, _, _, plain⟩ := declare_address first
      exact plain
    | some above => exact (declare_lower first).2.2
  refine foldlM_invariant (Imaged settings) (fun _ _ _ imaged applied => apply_imaged imaged applied) ?_ done
  intro image found
  rw [plain] at found
  cases found

theorem imageFor?_eq_some {address : Entry} {image : VirtualImage} (found : address.imageFor? settings = some image) :
    address.virtualImage? = some image ∨
      Text.startsWith settings.virtualPrefix address.name ∧ image = ⟨settings.virtualPrefix, settings.virtualPrefix⟩ := by
  unfold imageFor? at found
  split at found
  next given =>
    cases found
    exact .inl given
  next =>
    split at found <;> cases found
    exact .inr ⟨by assumption, rfl⟩

theorem imageFor?_isSome {address : Entry} :
    (address.imageFor? settings).isSome ↔
      address.virtualImage?.isSome ∨ Text.startsWith settings.virtualPrefix address.name := by
  unfold imageFor?
  split
  next given => simp [given]
  next missing =>
    rw [missing]
    split <;> simp [*]

theorem variants_of_none {address : Entry} (missing : address.imageFor? settings = none) (entry : Entry) :
    variants settings address entry = [⟨entry, address, .any, entry.hardwareNames⟩] := by
  rw [variants, missing]
  rfl

theorem variants_of_some {address entry : Entry} {image : VirtualImage} (found : address.imageFor? settings = some image)
    (some : entry.virtualNames image ≠ []) :
    variants settings address entry =
      [⟨entry, address, .physical, entry.hardwareNames⟩, ⟨entry, address, .virtual, entry.virtualNames image⟩] := by
  rw [variants, found]
  dsimp only
  split
  next none => exact absurd none some
  next => rfl

end Entry

namespace Catalog
open Outcome

variable {settings : Settings} {layout : Layout} {text : String} {catalog : Catalog}

theorem image_of_read (accepted : read settings layout text = .ok catalog) {place : Nat} {entry : Entry}
    {image : VirtualImage} (stored : catalog.entries[place]? = some entry)
    (found : (catalog.addressOf place entry).imageFor? settings = some image) :
    Text.startsWith settings.virtualPrefix image.target ∧
      ∃ rest, (catalog.addressOf place entry).name = image.source ++ rest := by
  obtain ⟨rest, name, _⟩ := primary_of_read accepted stored
  rcases Entry.imageFor?_eq_some found with given | ⟨start, rfl⟩
  · obtain ⟨_, _, _, _, _, made, _⟩ := declares_at accepted (addressOf_of_read accepted stored).1
    obtain ⟨target, source⟩ := Entry.ofWords_imaged made image given
    refine ⟨target, ?_⟩
    rcases source with own | exported
    · exact ⟨"", by rw [own, String.append_empty]⟩
    · exact ⟨rest, by rw [exported, name]⟩
  · exact ⟨Text.startsWith_iff.mpr ⟨"", by rw [String.append_empty]⟩, Text.startsWith_iff.mp start⟩

theorem virtualNames_ne_nil (accepted : read settings layout text = .ok catalog) {place : Nat} {entry : Entry}
    {image : VirtualImage} (stored : catalog.entries[place]? = some entry)
    (found : (catalog.addressOf place entry).imageFor? settings = some image) : entry.virtualNames image ≠ [] := by
  obtain ⟨rest, name, _, primary⟩ := primary_of_read accepted stored
  obtain ⟨first, head, same⟩ := Option.map_eq_some_iff.mp primary
  obtain ⟨_, more, start⟩ := image_of_read accepted stored found
  have longer : ∃ others, first.name = (catalog.addressOf place entry).name ++ others := by
    rw [same, ← String.intercalate_cons_append, ← name]
    cases catalog.lowerNames place with
    | nil => exact ⟨"", by rw [String.intercalate_singleton, String.append_empty]⟩
    | cons lower others =>
      refine ⟨"_" ++ "_".intercalate (lower :: others), ?_⟩
      rw [String.intercalate_cons_cons, String.append_assoc]
  obtain ⟨others, longer⟩ := longer
  have member : (⟨image.target ++ (more ++ others), first.domain⟩ : HardwareName) ∈ entry.virtualNames image := by
    apply Entry.mem_virtualNames.mpr
    refine ⟨first, List.mem_of_mem_head? head, more ++ others, ?_, rfl, rfl⟩
    rw [longer, start, String.append_assoc]
  exact List.ne_nil_of_mem member

theorem variants_of_read (accepted : read settings layout text = .ok catalog) {place : Nat} {entry : Entry}
    {image : VirtualImage} (stored : catalog.entries[place]? = some entry)
    (found : (catalog.addressOf place entry).imageFor? settings = some image) :
    Entry.variants settings (catalog.addressOf place entry) entry =
      [⟨entry, catalog.addressOf place entry, .physical, entry.hardwareNames⟩,
        ⟨entry, catalog.addressOf place entry, .virtual, entry.virtualNames image⟩] :=
  Entry.variants_of_some found (virtualNames_ne_nil accepted stored found)

/-- An entry whose address has a virtual register has exactly two variants. The physical one has its own names; the
virtual one has the images of those that have any, in the same order and with the same domain, and there is at least
one. Any other entry has a single variant for all environments. -/
theorem variants_are_complete (accepted : read settings layout text = .ok catalog) {place : Nat} {entry address : Entry}
    (stored : catalog.entries[place]? = some entry) (top : catalog.addressOf place entry = address) :
    ((address.virtualImage?.isSome ∨ Text.startsWith settings.virtualPrefix address.name) →
      ∃ image names, address.imageFor? settings = some image ∧
        Entry.variants settings address entry =
          [⟨entry, address, .physical, entry.hardwareNames⟩, ⟨entry, address, .virtual, names⟩] ∧
        names ≠ [] ∧ (∀ shown ∈ names, Text.startsWith settings.virtualPrefix shown.name) ∧
        List.Forall₂ image.Maps (entry.hardwareNames.filter fun known => Text.startsWith image.source known.name) names) ∧
    (¬ (address.virtualImage?.isSome ∨ Text.startsWith settings.virtualPrefix address.name) →
      Entry.variants settings address entry = [⟨entry, address, .any, entry.hardwareNames⟩]) := by
  subst top
  rw [← Entry.imageFor?_isSome]
  constructor
  · intro virtual
    obtain ⟨image, found⟩ := Option.isSome_iff_exists.mp virtual
    refine ⟨image, entry.virtualNames image, found, variants_of_read accepted stored found,
      virtualNames_ne_nil accepted stored found, ?_, entry.virtualNames_maps image⟩
    intro shown member
    obtain ⟨known, _, rest, _, made, _⟩ := Entry.mem_virtualNames.mp member
    obtain ⟨target, same⟩ := Text.startsWith_iff.mp (image_of_read accepted stored found).1
    exact Text.startsWith_iff.mpr ⟨target ++ rest, by rw [made, same, String.append_assoc]⟩
  · intro plain
    exact Entry.variants_of_none (Option.not_isSome_iff_eq_none.mp plain) entry

theorem variants_are_complete_synonym :
    ∃ layout catalog entry address names, ({} : Settings).layout = .ok layout ∧
      read {} layout "LW_PMC -virtual_mirror LW_VIRTUAL_MC -alias LW_PBUS\n  _BOOT -alias PMC\n" = .ok catalog ∧
      catalog.entries[1]? = some entry ∧ catalog.addressOf 1 entry = address ∧
      Entry.variants {} address entry =
        [⟨entry, address, .physical, entry.hardwareNames⟩, ⟨entry, address, .virtual, names⟩] ∧
      entry.hardwareNames.map HardwareName.name = ["LW_PMC_BOOT", "LW_PBUS_BOOT", "LW_PMC_PMC", "LW_PBUS_PMC"] ∧
      List.Forall₂ (VirtualImage.Maps ⟨"LW_PMC", "LW_VIRTUAL_MC"⟩)
        [⟨"LW_PMC_BOOT", "RAW"⟩, ⟨"LW_PMC_PMC", "RAW"⟩] names := by
  have field : ((read {} ⟨8, 8, 14, by decide⟩
      "LW_PMC -virtual_mirror LW_VIRTUAL_MC -alias LW_PBUS\n  _BOOT -alias PMC\n").toOption.bind
      fun catalog => catalog.entries[1]?.map fun entry => (entry.hardwareNames, (catalog.addressOf 1 entry).virtualImage?)) =
      some ([⟨"LW_PMC_BOOT", "RAW"⟩, ⟨"LW_PBUS_BOOT", "RAW"⟩, ⟨"LW_PMC_PMC", "RAW"⟩, ⟨"LW_PBUS_PMC", "RAW"⟩],
        some ⟨"LW_PMC", "LW_VIRTUAL_MC"⟩) := by
    decide +kernel
  obtain ⟨catalog, accepted, field⟩ := Option.bind_eq_some_iff.mp field
  obtain ⟨entry, stored, field⟩ := Option.map_eq_some_iff.mp field
  rw [toOption_eq_some] at accepted
  obtain ⟨known, given⟩ := Prod.mk.inj field
  obtain ⟨image, names, found, two, _, _, maps⟩ :=
    (variants_are_complete accepted stored rfl).1 (.inl (by rw [given]; rfl))
  rw [Entry.imageFor?, given] at found
  cases found
  have kept : (entry.hardwareNames.filter fun known => Text.startsWith "LW_PMC" known.name) =
      [⟨"LW_PMC_BOOT", "RAW"⟩, ⟨"LW_PMC_PMC", "RAW"⟩] := by
    rw [known]
    decide +kernel
  rw [kept] at maps
  exact ⟨_, catalog, entry, _, names, rfl, accepted, stored, rfl, two, by rw [known]; rfl, maps⟩

/-- No line but those of addresses gives synonyms. -/
def SynonymsOnTop (text : String) (catalog : Catalog) : Prop :=
  ∀ declared ∈ (codeLines text).zip catalog.toList, declared.2.level ≠ .address → declared.1.synonyms = []

instance (text : String) (catalog : Catalog) : Decidable (SynonymsOnTop text catalog) :=
  inferInstanceAs (Decidable (∀ declared ∈ (codeLines text).zip catalog.toList, _ → _))

theorem lowerNames_ne_nil (accepted : read settings layout text = .ok catalog) {place : Nat} {entry : Entry}
    (stored : catalog.entries[place]? = some entry) (lower : entry.level ≠ .address) : catalog.lowerNames place ≠ [] := by
  cases below : entry.parent? with
  | none => exact absurd ((hangs_of_read accepted stored).top.mp below) lower
  | some above =>
    rw [(preorder_of_read accepted).lowerNames_lower stored below]
    simp

/-- Without synonyms of their own, entries go on from every name of their address in the same way. -/
theorem names_of_synonymsOnTop (accepted : read settings layout text = .ok catalog)
    (plain : SynonymsOnTop text catalog) {place : Nat} {entry : Entry} (stored : catalog.entries[place]? = some entry) :
    entry.hardwareNames = (catalog.addressOf place entry).hardwareNames.map fun known =>
      { known with name := "_".intercalate (known.name :: catalog.lowerNames place) } := by
  apply entry_induction accepted _ _ stored
  · intro place line previous? entry stored top _
    rw [addressOf_address stored top, lowerNames_address stored top]
    simp only [String.intercalate_singleton, List.map_id']
  · intro place line level previous? above entry here stored below made upper ih
    have lower : entry.level ≠ .address := by
      intro address
      rw [(hangs_of_read accepted stored).top.mpr address] at below
      cases below
    have silent : line.synonyms = [] := by
      apply plain (line, entry) _ lower
      apply List.mem_of_getElem?
      exact List.getElem?_zip_eq_some.mpr ⟨here, by simpa [toList] using stored⟩
    obtain ⟨declared, directives, first, given, done, kept⟩ := Entry.ofWords_steps made
    obtain ⟨_, names, _⟩ := Entry.declare_lower first
    rw [CodeLine.synonyms, given] at silent
    rw [Entry.foldlM_apply_names (kept.level ▸ lower) silent done, names, ih,
      addressOf_lower accepted stored below upper, (preorder_of_read accepted).lowerNames_lower stored below,
      List.map_map]
    apply List.map_congr_left
    intro known _
    simp only [Function.comp_apply, ← List.cons_append, kept.name]
    rw [String.intercalate_append_of_ne_nil (by simp) (by simp), String.intercalate_singleton]

end Catalog

/-- What the image replaces reaches below the address: it is a name of the address together with how `path`
begins. -/
def VirtualImage.ReachesBelow (image : VirtualImage) (address : Entry) (path : String) : Prop :=
  ∃ upper ∈ address.hardwareNames, ∃ stem, image.source = upper.name ++ "_" ++ stem ∧ Text.startsWith stem path

instance (image : VirtualImage) (address : Entry) (path : String) : Decidable (image.ReachesBelow address path) :=
  decidable_of_iff (∃ upper ∈ address.hardwareNames, ∃ stem ∈ Text.dropStart? (upper.name ++ "_") image.source,
    Text.startsWith stem path) (by simp only [Option.mem_def, Text.dropStart?_eq_some, VirtualImage.ReachesBelow])

/-- The image of a name that goes on from a name of the address goes on from the image of that name. -/
theorem VirtualImage.maps_below {image : VirtualImage} {address : Entry} {path : String} {upper known shown : HardwareName}
    (outside : ¬ image.ReachesBelow address path) (member : upper ∈ address.hardwareNames)
    (longer : known.name = upper.name ++ "_" ++ path) (maps : image.Maps known shown) :
    ∃ above ∈ address.virtualNames image, ∃ rest, shown.name = above.name ++ "_" ++ rest := by
  obtain ⟨rest, same, made, _⟩ := maps
  rcases Text.start_of_extended (longer.symm.trans same) with ⟨more, start, rfl⟩ | ⟨stem, source, split⟩
  · refine ⟨⟨image.target ++ more, upper.domain⟩, ?_, path, ?_⟩
    · exact Entry.mem_virtualNames.mpr ⟨upper, member, more, start, rfl, rfl⟩
    · rw [made]
      simp only [String.append_assoc]
  · exact absurd ⟨upper, member, stem, source, Text.startsWith_iff.mpr ⟨rest, split⟩⟩ outside

namespace Catalog
open Outcome

variable {settings : Settings} {layout : Layout} {text : String} {catalog : Catalog}

/-- If only addresses have synonyms, then every name in the virtual variant of a field or value goes on from a name
in the virtual variant of its address, unless what the image replaces reaches below the address. -/
theorem virtual_names_go_on_from_address (accepted : read settings layout text = .ok catalog)
    (plain : SynonymsOnTop text catalog) {place : Nat} {entry : Entry} (stored : catalog.entries[place]? = some entry)
    (lower : entry.level ≠ .address)
    (outside : ∀ image, (catalog.addressOf place entry).imageFor? settings = some image →
      ¬ image.ReachesBelow (catalog.addressOf place entry) ("_".intercalate (catalog.lowerNames place)))
    {variant : Variant} (expanded : variant ∈ Entry.variants settings (catalog.addressOf place entry) entry)
    (virtual : variant.access = .virtual) :
    ∃ top address, catalog.Over top place ∧ catalog.entries[top]? = some address ∧ address.level = .address ∧
      ∃ upper ∈ Entry.variants settings (catalog.addressOf top address) address, upper.access = .virtual ∧
        ∀ known ∈ variant.names, ∃ above ∈ upper.names, ∃ rest, known.name = above.name ++ "_" ++ rest := by
  obtain ⟨found, level⟩ := addressOf_of_read accepted stored
  have leads := ((preorder_of_read accepted).over_addressPlace place).1
  have own := addressOf_address found ((hangs_of_read accepted found).top.mpr level)
  refine ⟨_, _, leads, found, level, ?_⟩
  cases imaged : (catalog.addressOf place entry).imageFor? settings with
  | none =>
    rw [Entry.variants_of_none imaged, List.mem_singleton] at expanded
    subst expanded
    cases virtual
  | some image =>
    rw [variants_of_read accepted stored imaged] at expanded
    rcases List.mem_pair.mp expanded with rfl | rfl
    · cases virtual
    · rw [variants_of_read accepted found (own.symm ▸ imaged)]
      refine ⟨_, List.mem_pair.mpr (.inr rfl), rfl, ?_⟩
      intro shown member
      obtain ⟨known, inside, maps⟩ := Entry.mem_virtualNames.mp member
      rw [names_of_synonymsOnTop accepted plain stored] at inside
      obtain ⟨upper, above, rfl⟩ := List.mem_map.mp inside
      exact VirtualImage.maps_below (outside image imaged) above
        (String.intercalate_cons_of_ne_nil (lowerNames_ne_nil accepted stored lower)) maps

theorem virtual_names_go_on_from_address_short_synonym :
    ∃ layout catalog entry variant top address, ({} : Settings).layout = .ok layout ∧
      read {} layout "LW_A_B -virtual_mirror LW_VIRTUAL_Q -alias LW_A\n  _F\n" = .ok catalog ∧
      SynonymsOnTop "LW_A_B -virtual_mirror LW_VIRTUAL_Q -alias LW_A\n  _F\n" catalog ∧
      catalog.entries[1]? = some entry ∧ entry.hardwareNames.map HardwareName.name = ["LW_A_B_F", "LW_A_F"] ∧
      variant ∈ Entry.variants {} (catalog.addressOf 1 entry) entry ∧ variant.access = .virtual ∧
      catalog.entries[top]? = some address ∧
      ∃ upper ∈ Entry.variants {} (catalog.addressOf top address) address, upper.access = .virtual ∧
        ∀ known ∈ variant.names, ∃ above ∈ upper.names, ∃ rest, known.name = above.name ++ "_" ++ rest := by
  have field : ((read {} ⟨8, 8, 14, by decide⟩ "LW_A_B -virtual_mirror LW_VIRTUAL_Q -alias LW_A\n  _F\n").toOption.bind
      fun catalog => catalog.entries[1]?.map fun entry =>
        (decide (SynonymsOnTop "LW_A_B -virtual_mirror LW_VIRTUAL_Q -alias LW_A\n  _F\n" catalog), entry.level,
          entry.hardwareNames.map HardwareName.name, (catalog.addressOf 1 entry).imageFor? {},
          decide (VirtualImage.ReachesBelow ⟨"LW_A_B", "LW_VIRTUAL_Q"⟩ (catalog.addressOf 1 entry)
            ("_".intercalate (catalog.lowerNames 1))))) =
      some (true, .field, ["LW_A_B_F", "LW_A_F"], some ⟨"LW_A_B", "LW_VIRTUAL_Q"⟩, false) := by
    decide +kernel
  obtain ⟨catalog, accepted, field⟩ := Option.bind_eq_some_iff.mp field
  obtain ⟨entry, stored, field⟩ := Option.map_eq_some_iff.mp field
  rw [toOption_eq_some] at accepted
  simp only [Prod.mk.injEq, decide_eq_true_eq, decide_eq_false_iff_not] at field
  obtain ⟨plain, level, names, imaged, outside⟩ := field
  have expanded := variants_of_read accepted stored imaged
  have member : ⟨entry, catalog.addressOf 1 entry, .virtual, entry.virtualNames ⟨"LW_A_B", "LW_VIRTUAL_Q"⟩⟩ ∈
      Entry.variants {} (catalog.addressOf 1 entry) entry := by
    rw [expanded]
    exact List.mem_pair.mpr (.inr rfl)
  have free : ∀ image, (catalog.addressOf 1 entry).imageFor? {} = some image →
      ¬ image.ReachesBelow (catalog.addressOf 1 entry) ("_".intercalate (catalog.lowerNames 1)) := by
    intro image found
    cases imaged.symm.trans found
    exact outside
  obtain ⟨top, address, _, found, _, below⟩ :=
    virtual_names_go_on_from_address accepted plain stored (by rw [level]; decide) free member rfl
  exact ⟨_, catalog, entry, _, top, address, rfl, accepted, plain, stored, names, member, rfl, found, below⟩

/-- The synonym of the address has no image, but with the first letter of the field it is what the image replaces. -/
theorem virtual_names_leave_address :
    ∃ layout catalog address entry variant known, ({} : Settings).layout = .ok layout ∧
      read {} layout "LW_A_B -virtual_mirror LW_VIRTUAL_Q -alias LW_A\n  _BX\n" = .ok catalog ∧
      SynonymsOnTop "LW_A_B -virtual_mirror LW_VIRTUAL_Q -alias LW_A\n  _BX\n" catalog ∧
      catalog.entries[0]? = some address ∧ address.level = .address ∧
      catalog.entries[1]? = some entry ∧ entry.level = .field ∧ entry.parent? = some 0 ∧
      variant ∈ Entry.variants {} (catalog.addressOf 1 entry) entry ∧ variant.access = .virtual ∧
      known ∈ variant.names ∧
      ¬ ∃ upper ∈ Entry.variants {} (catalog.addressOf 0 address) address, upper.access = .virtual ∧
        ∃ above ∈ upper.names, ∃ rest, known.name = above.name ++ "_" ++ rest := by
  have plain : ((read {} ⟨8, 8, 14, by decide⟩ "LW_A_B -virtual_mirror LW_VIRTUAL_Q -alias LW_A\n  _BX\n").toOption.map
      fun catalog => decide (SynonymsOnTop "LW_A_B -virtual_mirror LW_VIRTUAL_Q -alias LW_A\n  _BX\n" catalog)) =
      some true := by
    decide +kernel
  have field : ((read {} ⟨8, 8, 14, by decide⟩ "LW_A_B -virtual_mirror LW_VIRTUAL_Q -alias LW_A\n  _BX\n").toOption.bind
      fun catalog => catalog.entries[0]?.bind fun address => catalog.entries[1]?.map fun entry =>
        ((address.level, entry.level, entry.parent?), address.virtualImage?, address.hardwareNames, entry.hardwareNames)) =
      some ((.address, .field, some 0), some ⟨"LW_A_B", "LW_VIRTUAL_Q"⟩,
        [⟨"LW_A_B", "RAW"⟩, ⟨"LW_A", "RAW"⟩], [⟨"LW_A_B_BX", "RAW"⟩, ⟨"LW_A_BX", "RAW"⟩]) := by
    decide +kernel
  obtain ⟨catalog, accepted, field⟩ := Option.bind_eq_some_iff.mp field
  obtain ⟨address, top, field⟩ := Option.bind_eq_some_iff.mp field
  obtain ⟨entry, stored, field⟩ := Option.map_eq_some_iff.mp field
  rw [accepted, Option.map_some, Option.some.injEq, decide_eq_true_eq] at plain
  rw [toOption_eq_some] at accepted
  simp only [Prod.mk.injEq] at field
  obtain ⟨⟨level, deeper, below⟩, given, uppers, lowers⟩ := field
  have imaged : address.imageFor? {} = some ⟨"LW_A_B", "LW_VIRTUAL_Q"⟩ := by
    rw [Entry.imageFor?, given]
  have own := addressOf_address top ((hangs_of_read accepted top).top.mpr level)
  have inherited := (addressOf_lower accepted stored below top).trans own
  refine ⟨_, catalog, address, entry,
    ⟨entry, catalog.addressOf 1 entry, .virtual, entry.virtualNames ⟨"LW_A_B", "LW_VIRTUAL_Q"⟩⟩,
    ⟨"LW_VIRTUAL_QX", "RAW"⟩, rfl, accepted, plain, top, level, stored, deeper, below, ?_, rfl, ?_, ?_⟩
  · rw [variants_of_read accepted stored (inherited.symm ▸ imaged)]
    exact List.mem_pair.mpr (.inr rfl)
  · apply Entry.mem_virtualNames.mpr
    rw [lowers]
    exact ⟨⟨"LW_A_BX", "RAW"⟩, by simp, "X", rfl, rfl, rfl⟩
  · rintro ⟨upper, expanded, access, above, inside, rest, same⟩
    rw [variants_of_read accepted top (own.symm ▸ imaged)] at expanded
    rcases List.mem_pair.mp expanded with rfl | rfl
    · cases access
    · have single : address.virtualNames ⟨"LW_A_B", "LW_VIRTUAL_Q"⟩ = [⟨"LW_VIRTUAL_Q", "RAW"⟩] := by
        rw [Entry.virtualNames, uppers]
        decide +kernel
      rw [single, List.mem_singleton] at inside
      subst inside
      simpa using congrArg String.toList same

end Catalog
end RegisterCatalog
