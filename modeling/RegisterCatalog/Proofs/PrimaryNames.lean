import Mathlib.Data.List.Basic
import RegisterCatalog.Proofs.PreOrder
import RegisterCatalog.Proofs.SynonymNames

/-! The first hardware name of an entry. It says the same as the symbol: both spell the names on the way down
from the address, only their beginnings differ. Directives may add names behind it, but none takes its
place, so it is told apart from the first names of all other entries as the symbols are. -/

namespace RegisterCatalog

theorem Text.dropStart?_eq_some {start text rest : String} :
    Text.dropStart? start text = some rest ↔ text = start ++ rest := by
  unfold dropStart?
  constructor
  · intro found
    obtain ⟨chars, cut, rfl⟩ := Option.map_eq_some_iff.mp found
    apply String.toList_inj.mp
    rw [String.toList_append, String.toList_ofList, List.isPrefixOf?_eq_some_iff_append_eq.mp cut]
  · rintro rfl
    rw [String.toList_append, List.isPrefixOf?_eq_some_iff_append_eq.mpr rfl, Option.map_some, String.ofList_toList]

namespace Entry
open Outcome

variable {settings : Settings}

/-- What a directive can do to the names of an entry and to its virtual image. -/
theorem apply_cases {before after : Entry} {directive : Directive} (done : apply settings before directive = .ok after) :
    (after.hardwareNames = before.hardwareNames ∧ after.virtualImage? = before.virtualImage?) ∨
    (∃ domain, after = { before with
      domain? := some domain
      hardwareNames := before.hardwareNames.map fun known => { known with domain } }) ∨
    (∃ image, after = { before with virtualImage? := some image } ∧ Text.startsWith settings.virtualPrefix image.target ∧
      (image.source = before.name ∨ image.source = settings.sourcePrefix)) ∨
    ∃ synonym, after = before.addSynonym synonym := by
  obtain ⟨accepted, rfl⟩ := apply_eq_ok.mp done
  cases directive with
  | arrayLimit limit | replaceArray old new limit | replaceStride old stride limit | replaceString old new
  | capability name => exact .inl ⟨rfl, rfl⟩
  | domain name => exact .inr (.inl ⟨name, rfl⟩)
  | virtualImage target =>
    have virtual : Text.startsWith settings.virtualPrefix target := (Bool.and_eq_true_iff.mp accepted.fits).2
    exact .inr (.inr (.inl ⟨⟨before.name, target⟩, rfl, virtual, .inl rfl⟩))
  | virtualExport =>
    refine .inr (.inr (.inl ⟨⟨settings.sourcePrefix, settings.virtualPrefix⟩, rfl, ?_, .inr rfl⟩))
    simp [Text.startsWith]
  | synonym name => exact .inr (.inr (.inr ⟨name, rfl⟩))

def primaryName? (entry : Entry) : Option String := entry.hardwareNames.head?.map HardwareName.name

theorem primaryName?_of_prefix {before after : Entry} {name : String} (first : before.primaryName? = some name)
    (extended : before.hardwareNames <+: after.hardwareNames) : after.primaryName? = some name := by
  obtain ⟨more, names⟩ := extended
  obtain ⟨known, head, rfl⟩ := Option.map_eq_some_iff.mp first
  rw [primaryName?, ← names, List.head?_append, head]
  rfl

theorem prefix_foldl_insertName (added names : List HardwareName) : names <+: added.foldl insertName names := by
  induction added generalizing names with
  | nil => exact List.prefix_rfl
  | cons first rest ih =>
    apply List.IsPrefix.trans _ (ih (insertName names first))
    unfold insertName
    split
    · exact List.prefix_rfl
    · exact List.prefix_append names [first]

theorem prefix_addSynonym (entry : Entry) (synonym : String) :
    entry.hardwareNames <+: (entry.addSynonym synonym).hardwareNames := by
  unfold addSynonym
  split
  · exact List.prefix_append _ _
  · exact prefix_foldl_insertName _ _

theorem apply_primaryName? {before after : Entry} {directive : Directive} {name : String}
    (first : before.primaryName? = some name) (done : apply settings before directive = .ok after) :
    after.primaryName? = some name := by
  rcases apply_cases done with ⟨same, _⟩ | ⟨domain, rfl⟩ | ⟨image, rfl, _⟩ | ⟨synonym, rfl⟩
  · exact primaryName?_of_prefix first (same ▸ List.prefix_rfl)
  · rw [← first]
    simp only [primaryName?, List.head?_map, Option.map_map]
    rfl
  · exact first
  · exact primaryName?_of_prefix first (prefix_addSynonym before synonym)

theorem foldlM_primaryName? {directives : List Directive} {before after : Entry} {name : String}
    (first : before.primaryName? = some name) (done : directives.foldlM (apply settings) before = .ok after) :
    after.primaryName? = some name :=
  foldlM_invariant (fun entry => entry.primaryName? = some name)
    (fun _ _ _ first applied => apply_primaryName? first applied) first done

theorem ofWords_steps {layout : Layout} {line : Nat} {level : Level} {above? : Option Above}
    {previous? : Option Entry} {word : String} {rest : List String} {entry : Entry}
    (done : ofWords settings layout line level above? previous? word rest = .ok entry) :
    ∃ declared directives, declare settings layout line level above? previous? word = .ok declared ∧
      Directive.readAll rest = .ok directives ∧ directives.foldlM (apply settings) declared = .ok entry ∧
      Keeps declared entry := by
  obtain ⟨declared, first, done⟩ := bind_eq_ok.mp done
  obtain ⟨directives, given, done⟩ := bind_eq_ok.mp done
  refine ⟨declared, directives, first, given, done, ?_⟩
  exact foldlM_invariant (Keeps declared) (fun _ _ _ kept applied => kept.trans (apply_keeps applied))
    (Keeps.refl declared) done

theorem declare_address {layout : Layout} {line : Nat} {level : Level} {previous? : Option Entry} {word : String}
    {entry : Entry} (done : declare settings layout line level none previous? word = .ok entry) :
    ∃ rest, entry.name = settings.sourcePrefix ++ rest ∧ entry.symbol = settings.symbolPrefix ++ rest ∧
      entry.hardwareNames = [⟨entry.name, defaultDomain⟩] ∧ entry.virtualImage? = none := by
  obtain ⟨name, _, done⟩ := bind_eq_ok.mp done
  obtain ⟨_, _, done⟩ := bind_eq_ok.mp done
  obtain ⟨number, _, done⟩ := bind_eq_ok.mp done
  dsimp only at done
  split at done
  · cases done
  next rest cut =>
    cases done
    exact ⟨rest, Text.dropStart?_eq_some.mp cut, rfl, rfl, rfl⟩

theorem declare_lower {layout : Layout} {line : Nat} {level : Level} {above : Above} {previous? : Option Entry}
    {word : String} {entry : Entry}
    (done : declare settings layout line level (some above) previous? word = .ok entry) :
    entry.symbol = above.entry.symbol ++ "_" ++ entry.name ∧
      entry.hardwareNames = (above.entry.hardwareNames.map fun known =>
        { known with name := known.name ++ "_" ++ entry.name }) ∧ entry.virtualImage? = none := by
  obtain ⟨name, _, done⟩ := bind_eq_ok.mp done
  obtain ⟨_, _, done⟩ := bind_eq_ok.mp done
  obtain ⟨number, _, done⟩ := bind_eq_ok.mp done
  cases done
  exact ⟨rfl, rfl, rfl⟩

end Entry

namespace Catalog
open Outcome

theorem symbols_nodup {symbols : Std.TreeSet String} {entries : List Entry}
    (sound : faultAmong? symbols entries = none) :
    (entries.map Entry.symbol).Nodup ∧ ∀ entry ∈ entries, entry.symbol ∉ symbols := by
  induction entries generalizing symbols with
  | nil => simp
  | cons entry rest ih =>
    unfold faultAmong? at sound
    split at sound
    · cases sound
    · split at sound
      · cases sound
      next fresh =>
        obtain ⟨distinct, new⟩ := ih sound
        have others : ∀ other ∈ rest, entry.symbol ≠ other.symbol ∧ other.symbol ∉ symbols := by
          intro other member
          simpa [Std.TreeSet.mem_insert] using new other member
        rw [List.map_cons, List.nodup_cons]
        refine ⟨⟨?_, distinct⟩, ?_⟩
        · intro member
          obtain ⟨other, inside, same⟩ := List.mem_map.mp member
          exact (others other inside).1 same.symm
        · rw [List.forall_mem_cons]
          exact ⟨fresh, fun other member => (others other member).2⟩

/-- The names below the address on the way down to a place. -/
def lowerNames (catalog : Catalog) (place : Nat) : List String :=
  match catalog.entries[place]? with
  | none => []
  | some entry =>
    match entry.parent? with
    | none => []
    | some above => if above < place then catalog.lowerNames above ++ [entry.name] else [entry.name]

variable {settings : Settings} {layout : Layout} {text : String} {catalog : Catalog}

theorem lowerNames_address {place : Nat} {entry : Entry} (stored : catalog.entries[place]? = some entry)
    (top : entry.parent? = none) : catalog.lowerNames place = [] := by
  rw [lowerNames]
  simp only [stored, top]

theorem Preorder.lowerNames_lower (preorder : catalog.Preorder) {place above : Nat} {entry : Entry}
    (stored : catalog.entries[place]? = some entry) (below : entry.parent? = some above) :
    catalog.lowerNames place = catalog.lowerNames above ++ [entry.name] := by
  have earlier := preorder.earlier place above (parent?_eq_some.mpr ⟨entry, stored, below⟩)
  rw [lowerNames]
  simp only [stored, below, if_pos earlier]

theorem addressOf_address {place : Nat} {entry : Entry} (stored : catalog.entries[place]? = some entry)
    (top : entry.parent? = none) : catalog.addressOf place entry = entry := by
  have here : catalog.addressPlace place = place := by
    rw [addressPlace, parent?_of_stored stored, top]
  rw [addressOf, here, stored]
  rfl

theorem addressOf_lower (accepted : read settings layout text = .ok catalog) {place above : Nat} {entry parent : Entry}
    (stored : catalog.entries[place]? = some entry) (below : entry.parent? = some above)
    (upper : catalog.entries[above]? = some parent) : catalog.addressOf place entry = catalog.addressOf above parent := by
  have same := (preorder_of_read accepted).addressPlace_of_some (parent?_eq_some.mpr ⟨entry, stored, below⟩)
  have found := (addressOf_of_read accepted stored).1
  rw [same, (addressOf_of_read accepted upper).1] at found
  exact (Option.some.inj found).symm

theorem declares_at (accepted : read settings layout text = .ok catalog) {place : Nat} {entry : Entry}
    (stored : catalog.entries[place]? = some entry) :
    ∃ line, (codeLines text)[place]? = some line ∧ Declares settings layout catalog line entry := by
  have inside : catalog.toList[place]? = some entry := by simpa [toList] using stored
  obtain ⟨length, declares⟩ := List.forall₂_iff_get.mp (declares_of_read accepted)
  obtain ⟨bound, same⟩ := List.getElem?_eq_some_iff.mp inside
  refine ⟨(codeLines text)[place], List.getElem?_eq_getElem (length ▸ bound), ?_⟩
  have here := declares place (length ▸ bound) bound
  simp only [List.get_eq_getElem, same] at here
  exact here

/-- What holds of addresses, and of an entry whenever it holds of the entry above, holds of all entries. -/
theorem entry_induction (accepted : read settings layout text = .ok catalog) {motive : Nat → Entry → Prop}
    (address : ∀ (place : Nat) (line : CodeLine) (previous? : Option Entry) (entry : Entry),
      catalog.entries[place]? = some entry → entry.parent? = none →
      Entry.ofWords settings layout line.number .address none previous? line.word line.rest = .ok entry →
      motive place entry)
    (lower : ∀ (place : Nat) (line : CodeLine) (level : Level) (previous? : Option Entry) (above : Entry.Above) (entry : Entry),
      (codeLines text)[place]? = some line → catalog.entries[place]? = some entry → entry.parent? = some above.place →
      Entry.ofWords settings layout line.number level (some above) previous? line.word line.rest = .ok entry →
      catalog.entries[above.place]? = some above.entry → motive above.place above.entry → motive place entry)
    {place : Nat} {entry : Entry} (stored : catalog.entries[place]? = some entry) : motive place entry := by
  induction place using Nat.strongRecOn generalizing entry with
  | ind place ih =>
    obtain ⟨line, here, level, above?, previous?, made, top, upper⟩ := declares_at accepted stored
    have parent := (Entry.ofWords_stands made).parent
    cases above? with
    | none =>
      cases top.mp rfl
      exact address place line previous? entry stored parent made
    | some above =>
      have below : entry.parent? = some above.place := parent
      have earlier := (preorder_of_read accepted).earlier place _ (parent?_eq_some.mpr ⟨entry, stored, below⟩)
      exact lower place line level previous? above entry here stored below made (upper above rfl)
        (ih above.place earlier (upper above rfl))

/-- Behind the different beginnings of an address name and its symbol stands the same text, and every name on the
way down to an entry is added to both. -/
theorem primary_of_read (accepted : read settings layout text = .ok catalog) {place : Nat} {entry : Entry}
    (stored : catalog.entries[place]? = some entry) :
    ∃ rest, (catalog.addressOf place entry).name = settings.sourcePrefix ++ rest ∧
      entry.symbol = settings.symbolPrefix ++ "_".intercalate (rest :: catalog.lowerNames place) ∧
      entry.primaryName? = some (settings.sourcePrefix ++ "_".intercalate (rest :: catalog.lowerNames place)) := by
  apply entry_induction accepted _ _ stored
  · intro place line previous? entry stored top made
    obtain ⟨declared, directives, first, _, applied, kept⟩ := Entry.ofWords_steps made
    obtain ⟨rest, name, symbol, names, _⟩ := Entry.declare_address first
    refine ⟨rest, ?_, ?_, ?_⟩
    · rw [addressOf_address stored top, kept.name, name]
    · rw [kept.symbol, symbol, lowerNames_address stored top, String.intercalate_singleton]
    · refine Entry.foldlM_primaryName? ?_ applied
      rw [Entry.primaryName?, names, lowerNames_address stored top, String.intercalate_singleton, ← name]
      rfl
  · intro place line level previous? above entry _ stored below made upper ih
    obtain ⟨rest, name, symbol, primary⟩ := ih
    obtain ⟨declared, directives, first, _, applied, kept⟩ := Entry.ofWords_steps made
    obtain ⟨extended, names, _⟩ := Entry.declare_lower first
    have longer : "_".intercalate (rest :: catalog.lowerNames place) =
        "_".intercalate (rest :: catalog.lowerNames above.place) ++ "_" ++ entry.name := by
      rw [(preorder_of_read accepted).lowerNames_lower stored below, ← List.cons_append,
        String.intercalate_append_of_ne_nil (by simp) (by simp), String.intercalate_singleton]
    refine ⟨rest, ?_, ?_, ?_⟩
    · rw [addressOf_lower accepted stored below upper, name]
    · rw [kept.symbol, extended, symbol, longer, kept.name]
      simp only [String.append_assoc]
    · refine Entry.foldlM_primaryName? ?_ applied
      obtain ⟨known, head, same⟩ := Option.map_eq_some_iff.mp primary
      rw [Entry.primaryName?, names, List.head?_map, head, longer, kept.name]
      simp only [Option.map_some, same, String.append_assoc]

/-- Every entry has a hardware name. Its first one is the source prefix, and its symbol the symbol prefix, followed
by the same text: the address without the source prefix, and the names from there down to the entry. No
two entries have the same symbol, nor the same first hardware name. -/
theorem primary_names_match_symbols (accepted : read settings layout text = .ok catalog) :
    (∀ (place : Nat) (entry : Entry), catalog.entries[place]? = some entry →
      ∃ rest first, (catalog.addressOf place entry).name = settings.sourcePrefix ++ rest ∧
        entry.symbol = settings.symbolPrefix ++ "_".intercalate (rest :: catalog.lowerNames place) ∧
        entry.hardwareNames.head? = some first ∧
        first.name = settings.sourcePrefix ++ "_".intercalate (rest :: catalog.lowerNames place)) ∧
    (catalog.toList.map Entry.symbol).Nodup ∧ (catalog.toList.map Entry.primaryName?).Nodup := by
  obtain ⟨_, _, sound⟩ := read_eq_ok accepted
  have distinct := (symbols_nodup sound).1
  refine ⟨?_, distinct, ?_⟩
  · intro place entry stored
    obtain ⟨rest, name, symbol, primary⟩ := primary_of_read accepted stored
    obtain ⟨first, head, same⟩ := Option.map_eq_some_iff.mp primary
    exact ⟨rest, first, name, symbol, head, same⟩
  · have symbolOf : ∀ one ∈ catalog.toList, ∀ two ∈ catalog.toList, one.primaryName? = two.primaryName? →
        one.symbol = two.symbol := by
      intro one inside two member same
      obtain ⟨first, here⟩ := Array.mem_iff_getElem?.mp (Array.mem_toList_iff.mp inside)
      obtain ⟨second, there⟩ := Array.mem_iff_getElem?.mp (Array.mem_toList_iff.mp member)
      obtain ⟨_, _, symbol, primary⟩ := primary_of_read accepted here
      obtain ⟨_, _, other, also⟩ := primary_of_read accepted there
      rw [primary, also, Option.some.injEq, String.append_right_inj] at same
      rw [symbol, other, same]
    rw [List.nodup_iff_pairwise_ne, List.pairwise_map] at distinct ⊢
    apply distinct.imp_of_mem
    intro one two inside member apart same
    exact apart (symbolOf one inside two member same)

theorem primary_names_match_symbols_synonyms :
    ∃ layout catalog entry rest first, ({} : Settings).layout = .ok layout ∧
      read {} layout "LW_A -alias LW_B -domain D\n  _F -alias _X\n    _V -alias W\n" = .ok catalog ∧
      catalog.entries[2]? = some entry ∧ entry.symbol = "LWHAL_A_F_V" ∧
      entry.hardwareNames.map HardwareName.name =
        ["LW_A_F_V", "LW_B_F_V", "LW_A_X_V", "LW_B_X_V", "LW_A_F_W", "LW_B_F_W", "LW_A_X_W", "LW_B_X_W"] ∧
      catalog.lowerNames 2 = ["F", "V"] ∧
      entry.symbol = "LWHAL_" ++ "_".intercalate (rest :: catalog.lowerNames 2) ∧
      entry.hardwareNames.head? = some first ∧ first.name = "LW_" ++ "_".intercalate (rest :: catalog.lowerNames 2) ∧
      (catalog.toList.map Entry.primaryName?).Nodup := by
  have names : ((read {} ⟨8, 8, 14, by decide⟩ "LW_A -alias LW_B -domain D\n  _F -alias _X\n    _V -alias W\n").toOption.bind
      fun catalog => catalog.entries[2]?.map fun entry =>
        (entry.symbol, entry.hardwareNames.map HardwareName.name, catalog.lowerNames 2)) =
      some ("LWHAL_A_F_V",
        ["LW_A_F_V", "LW_B_F_V", "LW_A_X_V", "LW_B_X_V", "LW_A_F_W", "LW_B_F_W", "LW_A_X_W", "LW_B_X_W"], ["F", "V"]) := by
    decide +kernel
  obtain ⟨catalog, accepted, names⟩ := Option.bind_eq_some_iff.mp names
  obtain ⟨entry, stored, names⟩ := Option.map_eq_some_iff.mp names
  rw [toOption_eq_some] at accepted
  simp only [Prod.mk.injEq] at names
  obtain ⟨spelled, names, lower⟩ := names
  obtain ⟨each, _, distinct⟩ := primary_names_match_symbols accepted
  obtain ⟨rest, first, _, symbol, head, name⟩ := each 2 entry stored
  exact ⟨_, catalog, entry, rest, first, rfl, accepted, stored, spelled, names, lower, symbol, head, name, distinct⟩

end Catalog
end RegisterCatalog
