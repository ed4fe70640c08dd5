import RegisterCatalog.Proofs.ElementChoice
import RegisterCatalog.Proofs.TableRows
import RegisterCatalog.Proofs.VirtualNames

/-! The domain of an address. It is kept with every name of the address and handed down with the names, so it
does not matter where on a line the domain and the synonyms stand, and no row of a device table is in
another domain than the address it belongs to. -/

namespace RegisterCatalog
open Outcome

def Directive.domain? : Directive → Option String
  | domain name => some name
  | _ => none

def CodeLine.domains (line : CodeLine) : List String :=
  match Directive.readAll line.rest with
  | .ok directives => directives.filterMap Directive.domain?
  | .error _ => []

namespace Entry

/-- All names of the entry are in this domain. -/
def InDomain (domain : String) (entry : Entry) : Prop := ∀ known ∈ entry.hardwareNames, known.domain = domain

variable {settings : Settings} {layout : Layout} {line : Nat} {level : Level} {above : Above} {above? : Option Above}
  {previous? : Option Entry} {word domain : String} {rest : List String} {before after entry : Entry} {directive : Directive}

/-- The names that an address has are moved to the domain when it is given, and those that come later are put there. -/
theorem apply_inDomain_address (address : before.level = .address) (inDomain : before.InDomain before.domain)
    (done : apply settings before directive = .ok after) : after.InDomain after.domain := by
  obtain ⟨_, rfl⟩ := apply_eq_ok.mp done
  cases directive with
  | domain name =>
    intro known member
    obtain ⟨old, _, rfl⟩ := List.mem_map.mp member
    rfl
  | synonym name =>
    intro known member
    rw [revise, addSynonym, if_pos address] at member ⊢
    rcases List.mem_append.mp member with old | new
    · exact inDomain known old
    · cases List.mem_singleton.mp new
      rfl
  | _ => exact inDomain

/-- Below an address no domain is given, and synonyms take theirs from the names they are made of. -/
theorem apply_inDomain_lower (lower : before.level ≠ .address) (inDomain : before.InDomain domain)
    (done : apply settings before directive = .ok after) : after.InDomain domain := by
  rcases apply_names lower done with ⟨_, same⟩ | ⟨synonym, _, rfl⟩
  · rw [InDomain, same]
    exact inDomain
  · intro known member
    rcases mem_addSynonym lower member with here | ⟨old, inside, _, _, rfl⟩
    · exact inDomain known here
    · exact inDomain old inside

theorem foldlM_inDomain_address {directives : List Directive} (address : before.level = .address)
    (inDomain : before.InDomain before.domain) (done : directives.foldlM (apply settings) before = .ok after) :
    after.InDomain after.domain := by
  have kept := foldlM_invariant (fun entry : Entry => entry.level = .address ∧ entry.InDomain entry.domain)
    (fun _ _ _ before applied =>
      ⟨(apply_keeps applied).level.trans before.1, apply_inDomain_address before.1 before.2 applied⟩)
    ⟨address, inDomain⟩ done
  exact kept.2

theorem foldlM_inDomain_lower {directives : List Directive} (lower : before.level ≠ .address)
    (inDomain : before.InDomain domain) (done : directives.foldlM (apply settings) before = .ok after) :
    after.InDomain domain := by
  have kept := foldlM_invariant (fun entry : Entry => entry.level ≠ .address ∧ entry.InDomain domain)
    (fun _ _ _ before applied => ⟨(apply_keeps applied).level ▸ before.1, apply_inDomain_lower before.1 before.2 applied⟩)
    ⟨lower, inDomain⟩ done
  exact kept.2

theorem apply_domain? (done : apply settings before directive = .ok after) :
    after.domain?.toList = before.domain?.toList ++ directive.domain?.toList := by
  obtain ⟨accepted, rfl⟩ := apply_eq_ok.mp done
  cases directive with
  | domain name =>
    have missing : before.domain? = none := Option.isNone_iff_eq_none.mp (Option.isSome_eq_false_iff.mp accepted.free)
    rw [missing]
    rfl
  | synonym name =>
    rw [revise, addSynonym_eq]
    exact (List.append_nil _).symm
  | _ => exact (List.append_nil _).symm

theorem foldlM_domain? {directives : List Directive} (done : directives.foldlM (apply settings) before = .ok after) :
    after.domain?.toList = before.domain?.toList ++ directives.filterMap Directive.domain? := by
  induction directives generalizing before with
  | nil =>
    cases done
    simp
  | cons directive rest ih =>
    obtain ⟨middle, applied, done⟩ := foldlM_cons_eq_ok.mp done
    rw [ih done, apply_domain? applied, List.append_assoc]
    congr 1
    cases named : directive.domain? <;> simp [named]

theorem declare_domain? (done : declare settings layout line level above? previous? word = .ok entry) :
    entry.domain? = none := by
  obtain ⟨name, _, done⟩ := bind_eq_ok.mp done
  obtain ⟨_, _, done⟩ := bind_eq_ok.mp done
  obtain ⟨number, _, done⟩ := bind_eq_ok.mp done
  cases above? with
  | none =>
    dsimp only at done
    split at done <;> cases done
    rfl
  | some above =>
    cases done
    rfl

theorem ofWords_inDomain_address
    (made : ofWords settings layout line .address none previous? word rest = .ok entry) : entry.InDomain entry.domain := by
  obtain ⟨declared, directives, first, _, applied, _⟩ := ofWords_steps made
  obtain ⟨_, _, _, names, _⟩ := declare_address first
  refine foldlM_inDomain_address (declare_stands first).level ?_ applied
  intro known member
  rw [names, List.mem_singleton] at member
  rw [member, Entry.domain, declare_domain? first]
  rfl

theorem ofWords_inDomain_lower (lower : level ≠ .address) (upper : above.entry.InDomain domain)
    (made : ofWords settings layout line level (some above) previous? word rest = .ok entry) : entry.InDomain domain := by
  obtain ⟨declared, directives, first, _, applied, _⟩ := ofWords_steps made
  obtain ⟨_, names, _⟩ := declare_lower first
  refine foldlM_inDomain_lower ((declare_stands first).level ▸ lower) ?_ applied
  intro known member
  rw [names] at member
  obtain ⟨old, inside, rfl⟩ := List.mem_map.mp member
  exact upper old inside

end Entry

namespace MacroTable

variable {table : MacroTable} {tuple : List Nat} {known : HardwareName} {isAlias : Bool}

/-- What a name contributes to a tuple is in the domain of the name. -/
theorem contribution_domain {entry : Entry} {made : Contribution}
    (done : table.contribution entry tuple known isAlias = .ok made) :
    ∀ alternative, made.privilege? = some alternative ∨ alternative ∈ made.elements → alternative.domain = known.domain := by
  intro alternative
  rintro (privileged | member)
  · by_cases address : entry.level = .address
    · obtain ⟨mask?, _, shown⟩ := privilege_resolved done address
      obtain ⟨mask, _, rfl⟩ := Option.map_eq_some_iff.mp (shown.symm.trans privileged)
      rfl
    · rw [privilege_of_other done address] at privileged
      cases privileged
  · rw [contribution_elements done] at member
    split at member
    · obtain ⟨_, _, _, domain⟩ := mem_elementAlternatives member
      exact domain
    · cases member

end MacroTable

namespace Variant

variable {settings : Settings} {device : Device} {table : MacroTable} {variant : Variant}

theorem domain_of_deviceNames {known : HardwareName} (member : known ∈ variant.deviceNames device) :
    ∃ old ∈ variant.names, known.domain = old.domain := by
  obtain ⟨old, inside, rfl⟩ := List.mem_map.mp member
  exact ⟨old, inside, rfl⟩

theorem domain_of_targets {targets : List Target} {target : Target} {alternative : Alternative}
    (done : variant.targets device table = .ok targets) (present : target ∈ targets)
    (member : alternative ∈ target.alternatives) : ∃ known ∈ variant.names, alternative.domain = known.domain := by
  have named : ∃ known ∈ variant.deviceNames device, alternative.domain = known.domain := by
    rcases target_cases done present with ⟨ordinal, size⟩ | ⟨tuple, found, contributed, sorted⟩
    · rw [Target.eq_of_mem_ofAlternatives size] at member
      obtain ⟨known, inside, made⟩ := List.mem_filterMap.mp member
      refine ⟨known, inside, ?_⟩
      dsimp only at made
      split at made <;> cases made
      rfl
    · obtain ⟨made, inside, contributes⟩ : ∃ made ∈ found, made.privilege? = some alternative ∨ alternative ∈ made.elements := by
        rcases sorted with rfl | rfl
        · obtain ⟨made, inside, privileged⟩ := List.mem_filterMap.mp member
          exact ⟨made, inside, .inl privileged⟩
        · obtain ⟨made, inside, element⟩ := List.mem_flatMap.mp member
          exact ⟨made, inside, .inr element⟩
      obtain ⟨item, numbered, looked⟩ := exists_item_of_mem contributed inside
      exact ⟨item.1, List.fst_mem_of_mem_zipIdx numbered, MacroTable.contribution_domain looked alternative contributes⟩
  obtain ⟨known, inside, same⟩ := named
  obtain ⟨old, present, kept⟩ := domain_of_deviceNames inside
  exact ⟨old, present, same.trans kept⟩

theorem domain_of_variants {address entry : Entry} (expanded : variant ∈ Entry.variants settings address entry)
    {known : HardwareName} (member : known ∈ variant.names) : ∃ old ∈ entry.hardwareNames, known.domain = old.domain := by
  unfold Entry.variants at expanded
  split at expanded
  · cases List.mem_singleton.mp expanded
    exact ⟨known, member, rfl⟩
  · dsimp only at expanded
    split at expanded
    · cases List.mem_singleton.mp expanded
      exact ⟨known, member, rfl⟩
    · rcases List.mem_pair.mp expanded with rfl | rfl
      · exact ⟨known, member, rfl⟩
      · obtain ⟨old, inside, _, _, _, domain⟩ := Entry.mem_virtualNames.mp member
        exact ⟨old, inside, domain⟩

end Variant

theorem Entry.domain_of_rows {settings : Settings} {device : Device} {table : MacroTable} {address entry : Entry}
    {row : TableRow} {alternative : Alternative} (present : row ∈ Entry.rows settings device table address entry)
    (member : alternative ∈ row.alternatives) : ∃ known ∈ entry.hardwareNames, alternative.domain = known.domain := by
  obtain ⟨variant, expanded, inside⟩ := List.mem_flatMap.mp present
  obtain ⟨target, found, rfl⟩ := List.mem_map.mp inside
  cases done : variant.targets device table with
  | error cycle =>
    rw [done] at found
    cases found
  | ok targets =>
    rw [done] at found
    obtain ⟨shown, named, same⟩ := Variant.domain_of_targets done found member
    obtain ⟨known, own, kept⟩ := Variant.domain_of_variants expanded named
    exact ⟨known, own, same.trans kept⟩

namespace Catalog

variable {settings : Settings} {layout : Layout} {text : String} {catalog : Catalog}

theorem Declares.domains {line : CodeLine} {entry : Entry} (declares : Declares settings layout catalog line entry) :
    entry.domain?.toList = line.domains := by
  obtain ⟨level, above?, previous?, made, _⟩ := declares
  obtain ⟨declared, directives, first, given, applied, _⟩ := Entry.ofWords_steps made
  rw [Entry.foldlM_domain? applied, Entry.declare_domain? first, CodeLine.domains, given]
  rfl

theorem inDomain_of_read (accepted : read settings layout text = .ok catalog) {place : Nat} {entry : Entry}
    (stored : catalog.entries[place]? = some entry) : entry.InDomain (catalog.addressOf place entry).domain := by
  apply entry_induction accepted _ _ stored
  · intro place line previous? entry stored top made
    rw [addressOf_address stored top]
    exact Entry.ofWords_inDomain_address made
  · intro place line level previous? above entry _ stored below made upper ih
    have lower : level ≠ .address := by
      intro address
      have top := (hangs_of_read accepted stored).top.mpr ((Entry.ofWords_stands made).level.trans address)
      rw [below] at top
      cases top
    rw [addressOf_lower accepted stored below upper]
    exact Entry.ofWords_inDomain_lower lower ih made

/-- The domain of an address is the one that its line names, or the default domain. Every hardware name of every entry
below is in it, and so is every alternative of every row that a device table has for the entry. -/
theorem domains_follow_address (accepted : read settings layout text = .ok catalog) :
    (∀ place entry, catalog.entries[place]? = some entry →
      (∃ line, (codeLines text)[catalog.addressPlace place]? = some line ∧ line.domains.length ≤ 1 ∧
        (catalog.addressOf place entry).domain = line.domains.head?.getD "RAW") ∧
      ∀ known ∈ entry.hardwareNames, known.domain = (catalog.addressOf place entry).domain) ∧
    ∀ conventions device sharing table built, DeviceTable.build conventions catalog device sharing table = .ok built →
      ∀ row ∈ built.rows, ∃ place entry, catalog.entries[place]? = some entry ∧ row.id = entry.id ∧
        row.symbol = entry.symbol ∧
        ∀ alternative ∈ row.alternatives, alternative.domain = (catalog.addressOf place entry).domain := by
  constructor
  · intro place entry stored
    refine ⟨?_, inDomain_of_read accepted stored⟩
    obtain ⟨line, here, declares⟩ := declares_at accepted (addressOf_of_read accepted stored).1
    refine ⟨line, here, ?_⟩
    rw [← declares.domains, Entry.domain]
    cases (catalog.addressOf place entry).domain? <;> simp [defaultDomain]
  · intro conventions device sharing table built done row member
    rw [DeviceTable.rows_of_build done] at member
    obtain ⟨⟨entry, place⟩, listed, inside⟩ := List.mem_flatMap.mp member
    have stored : catalog.entries[place]? = some entry := by
      simpa [toList] using List.mem_zipIdx_iff_getElem?.mp listed
    obtain ⟨id, symbol, _⟩ := Entry.row_of_entry inside
    refine ⟨place, entry, stored, id, symbol, ?_⟩
    intro alternative found
    obtain ⟨known, own, same⟩ := Entry.domain_of_rows inside found
    exact same.trans (inDomain_of_read accepted stored known own)

/-- The domain comes after one synonym and before another. -/
def lateDomain : String := "LW_A -alias LW_B -domain FB -virtual_export -alias LW_C\n  _F -alias X\nLW_D\n"

/-- The field is found under a name that has both its synonym and that of the address. -/
def lateDomainMacros : MacroTable :=
  MacroTable.addText {} "#define LW_A 4\n#define LW_VIRTUAL_B 8\n#define LW_C_X 3:0\n#define LW_D 16\n"

theorem domains_follow_address_late :
    ∃ layout catalog field built, ({} : Settings).layout = .ok layout ∧ read {} layout lateDomain = .ok catalog ∧
      catalog.entries[1]? = some field ∧
      (field.hardwareNames.map HardwareName.name) = ["LW_A_F", "LW_B_F", "LW_C_F", "LW_A_X", "LW_B_X", "LW_C_X"] ∧
      (∀ known ∈ field.hardwareNames, known.domain = (catalog.addressOf 1 field).domain) ∧
      DeviceTable.build {} catalog ⟨"gp100", "pascal", none, none⟩ [] lateDomainMacros = .ok built ∧
      (built.rows.map fun row => (row.symbol, row.access, row.alternatives.map Alternative.domain)) =
        [("LWHAL_A", .physical, ["FB", "FB"]), ("LWHAL_A", .virtual, ["FB", "FB"]), ("LWHAL_A_F", .physical, ["FB", "FB"]),
          ("LWHAL_D", .any, ["RAW", "RAW"])] ∧
      ∀ row ∈ built.rows, ∃ place entry, catalog.entries[place]? = some entry ∧ row.symbol = entry.symbol ∧
        ∀ alternative ∈ row.alternatives, alternative.domain = (catalog.addressOf place entry).domain := by
  have rows : ((read {} ⟨8, 8, 14, by decide⟩ lateDomain).toOption.bind fun catalog =>
      catalog.entries[1]?.bind fun field =>
        (DeviceTable.build {} catalog ⟨"gp100", "pascal", none, none⟩ [] lateDomainMacros).toOption.map fun built =>
          (field.hardwareNames.map HardwareName.name,
            built.rows.map fun row => (row.symbol, row.access, row.alternatives.map Alternative.domain))) =
      some (["LW_A_F", "LW_B_F", "LW_C_F", "LW_A_X", "LW_B_X", "LW_C_X"],
        [("LWHAL_A", .physical, ["FB", "FB"]), ("LWHAL_A", .virtual, ["FB", "FB"]), ("LWHAL_A_F", .physical, ["FB", "FB"]),
          ("LWHAL_D", .any, ["RAW", "RAW"])]) := by
    decide +kernel
  obtain ⟨catalog, accepted, rows⟩ := Option.bind_eq_some_iff.mp rows
  obtain ⟨field, stored, rows⟩ := Option.bind_eq_some_iff.mp rows
  obtain ⟨built, done, rows⟩ := Option.map_eq_some_iff.mp rows
  rw [toOption_eq_some] at accepted done
  obtain ⟨names, rows⟩ := Prod.mk.inj rows
  obtain ⟨entries, tables⟩ := domains_follow_address accepted
  refine ⟨_, catalog, field, built, rfl, accepted, stored, names, (entries 1 field stored).2, done, rows, ?_⟩
  intro row member
  obtain ⟨place, entry, found, _, symbol, domains⟩ := tables _ _ _ _ _ done row member
  exact ⟨place, entry, found, symbol, domains⟩

end Catalog
end RegisterCatalog
