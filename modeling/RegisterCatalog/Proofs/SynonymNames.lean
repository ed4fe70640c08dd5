import RegisterCatalog.Proofs.CodeLines
import RegisterCatalog.Proofs.Occurrences

/-! Synonyms of fields and values. A hardware name of an entry goes on from a name of the entry above, and a
synonym takes the place of the entry's own name at its end. This is looked for in the text of the name
alone: a synonym that is itself the end of the entry's name can make it seem to reach further up. -/

namespace RegisterCatalog

/-- Two ways to cut a name at an underscore: the second cut is not before the first, unless what follows the
first is how `name` ends. -/
theorem Chars.cut_after {upper rest stem name : List Char} (same : upper ++ '_' :: rest = stem ++ '_' :: name)
    (apart : ¬ '_' :: rest <:+ name) : ∃ middle, stem = upper ++ middle ∧ '_' :: rest = middle ++ '_' :: name := by
  rcases List.append_eq_append_iff.mp same with after | ⟨middle, rfl, cut⟩
  · exact after
  · cases middle with
    | nil => exact ⟨[], by simp, cut.symm⟩
    | cons first others =>
      obtain ⟨_, ends⟩ := List.cons.inj cut
      exact absurd ⟨others, ends.symm⟩ apart

/-- What stands for another ending goes on from the same name, and ends with what was put in. -/
theorem Chars.replace_ending {upper rest stem name : List Char} (synonym : List Char)
    (same : upper ++ '_' :: rest = stem ++ '_' :: name) (apart : ¬ '_' :: rest <:+ name) :
    ∃ added, stem ++ '_' :: synonym = upper ++ '_' :: added ∧ '_' :: synonym <:+ '_' :: added := by
  obtain ⟨middle, rfl, cut⟩ := cut_after same apart
  cases middle with
  | nil => exact ⟨synonym, by simp, List.suffix_rfl⟩
  | cons first others =>
    obtain ⟨rfl, _⟩ := List.cons.inj cut
    exact ⟨others ++ '_' :: synonym, by simp, ⟨'_' :: others, rfl⟩⟩

namespace HardwareName

/-- The name goes on from one of the names `uppers` after an underscore. -/
def Below (uppers : List HardwareName) (known : HardwareName) : Prop :=
  ∃ upper ∈ uppers, ∃ rest, known.name = upper.name ++ "_" ++ rest

/-- What the name adds to one of the names `uppers` is not how `name` ends. -/
def Apart (uppers : List HardwareName) (name : String) (known : HardwareName) : Prop :=
  ∃ upper ∈ uppers, ∃ rest, known.name = upper.name ++ "_" ++ rest ∧ ¬ ("_" ++ rest).toList <:+ name.toList

variable {uppers : List HardwareName} {name : String} {known : HardwareName}

theorem Apart.below (apart : Apart uppers name known) : Below uppers known := by
  obtain ⟨upper, member, rest, same, _⟩ := apart
  exact ⟨upper, member, rest, same⟩

/-- A synonym in place of the entry's own name keeps the name below, and apart unless it is how the
entry's name ends. -/
theorem Apart.replace {old : HardwareName} {stem synonym : String} (apart : Apart uppers name old)
    (cut : old.name = stem ++ "_" ++ name) (made : known.name = stem ++ "_" ++ synonym) :
    Below uppers known ∧ (¬ ("_" ++ synonym).toList <:+ name.toList → Apart uppers name known) := by
  obtain ⟨upper, member, rest, same, free⟩ := apart
  have chars : upper.name.toList ++ '_' :: rest.toList = stem.toList ++ '_' :: name.toList := by
    simpa using congrArg String.toList (same.symm.trans cut)
  obtain ⟨added, moved, ends⟩ := Chars.replace_ending synonym.toList chars (by simpa using free)
  have goesOn : known.name = upper.name ++ "_" ++ String.ofList added := by
    apply String.toList_inj.mp
    simpa [made] using moved
  refine ⟨⟨upper, member, _, goesOn⟩, ?_⟩
  intro other
  refine ⟨upper, member, _, goesOn, ?_⟩
  intro suffix
  exact other (List.IsSuffix.trans (by simpa using ends) suffix)

end HardwareName

def Directive.synonym? : Directive → Option String
  | synonym name => some name
  | _ => none

namespace Entry
open Outcome HardwareName

variable {settings : Settings}

private theorem mem_foldl_insertName {added names : List HardwareName} {known : HardwareName}
    (member : known ∈ added.foldl insertName names) : known ∈ names ∨ known ∈ added := by
  induction added generalizing names with
  | nil => exact .inl member
  | cons first rest ih =>
    rcases ih member with here | there
    · unfold insertName at here
      split at here
      · exact .inl here
      · rcases List.mem_append.mp here with old | new
        · exact .inl old
        · exact .inr (List.mem_singleton.mp new ▸ List.mem_cons_self)
    · exact .inr (List.mem_cons_of_mem _ there)

theorem mem_addSynonym {entry : Entry} {synonym : String} {known : HardwareName} (lower : entry.level ≠ .address)
    (member : known ∈ (entry.addSynonym synonym).hardwareNames) :
    known ∈ entry.hardwareNames ∨ ∃ old ∈ entry.hardwareNames, ∃ stem, old.name = stem ++ "_" ++ entry.name ∧
      known = { old with name := stem ++ "_" ++ dropUnderscore synonym } := by
  rw [addSynonym, if_neg lower] at member
  rcases mem_foldl_insertName member with here | there
  · exact .inl here
  · obtain ⟨old, inside, made⟩ := List.mem_filterMap.mp there
    obtain ⟨stem, cut, rfl⟩ := Option.map_eq_some_iff.mp made
    refine .inr ⟨old, inside, stem, ?_, rfl⟩
    rw [Text.dropEnd?_eq_some cut, String.append_assoc]

theorem apply_names {before after : Entry} {directive : Directive} (lower : before.level ≠ .address)
    (done : apply settings before directive = .ok after) :
    (directive.synonym? = none ∧ after.hardwareNames = before.hardwareNames) ∨
      ∃ synonym, directive.synonym? = some synonym ∧ after = before.addSynonym synonym := by
  obtain ⟨⟨allowed, _, _⟩, rfl⟩ := apply_eq_ok.mp done
  cases directive with
  | arrayLimit limit | capability name => exact .inl ⟨rfl, rfl⟩
  | synonym name => exact .inr ⟨name, rfl, rfl⟩
  | _ => simp [Directive.allowedOn, lower] at allowed

theorem foldlM_apply_names {directives : List Directive} {before after : Entry} (lower : before.level ≠ .address)
    (plain : directives.filterMap Directive.synonym? = []) (done : directives.foldlM (apply settings) before = .ok after) :
    after.hardwareNames = before.hardwareNames := by
  induction directives generalizing before with
  | nil =>
    cases done
    rfl
  | cons directive rest ih =>
    rw [List.foldlM_cons] at done
    obtain ⟨middle, applied, done⟩ := bind_eq_ok.mp done
    have level : middle.level ≠ .address := (apply_keeps applied).level ▸ lower
    rw [List.filterMap_eq_nil_iff, List.forall_mem_cons] at plain
    rcases apply_names lower applied with ⟨_, same⟩ | ⟨synonym, given, _⟩
    · rw [ih level (List.filterMap_eq_nil_iff.mpr plain.2) done, same]
    · rw [plain.1] at given
      cases given

/-- The directives of a line keep the names below those of the entry above, if no synonym but the last is how
the entry's name ends. Synonyms before the last have to stay apart, because the next one looks for
the entry's name at their end. -/
theorem foldlM_apply_below {uppers : List HardwareName} {directives : List Directive} {before after : Entry}
    (lower : before.level ≠ .address)
    (apart : ∀ known ∈ before.hardwareNames, Apart uppers before.name known)
    (free : ∀ synonym ∈ (directives.filterMap Directive.synonym?).dropLast,
      ¬ ("_" ++ dropUnderscore synonym).toList <:+ before.name.toList)
    (done : directives.foldlM (apply settings) before = .ok after) :
    ∀ known ∈ after.hardwareNames, Below uppers known := by
  induction directives generalizing before with
  | nil =>
    cases done
    intro known member
    exact (apart known member).below
  | cons directive rest ih =>
    rw [List.foldlM_cons] at done
    obtain ⟨middle, applied, done⟩ := bind_eq_ok.mp done
    have kept := apply_keeps applied
    have level : middle.level ≠ .address := kept.level ▸ lower
    rcases apply_names lower applied with ⟨other, same⟩ | ⟨synonym, given, rfl⟩
    · refine ih level ?_ ?_ done
      · rw [same, kept.name]
        exact apart
      · rw [List.filterMap_cons, other] at free
        rw [kept.name]
        exact free
    · rw [List.filterMap_cons, given] at free
      by_cases last : rest.filterMap Directive.synonym? = []
      · rw [foldlM_apply_names level last done]
        intro known member
        rcases mem_addSynonym lower member with here | ⟨old, inside, stem, cut, made⟩
        · exact (apart known here).below
        · exact ((apart old inside).replace cut (congrArg HardwareName.name made)).1
      · rw [List.dropLast_cons_of_ne_nil last, List.forall_mem_cons] at free
        refine ih level ?_ (kept.name ▸ free.2) done
        intro known member
        rw [kept.name]
        rcases mem_addSynonym lower member with here | ⟨old, inside, stem, cut, made⟩
        · exact apart known here
        · exact ((apart old inside).replace cut (congrArg HardwareName.name made)).2 free.1

theorem declare_apart {layout : Layout} {line : Nat} {level : Level} {above : Above} {previous? : Option Entry}
    {word : String} {entry : Entry}
    (done : declare settings layout line level (some above) previous? word = .ok entry) :
    ∀ known ∈ entry.hardwareNames, Apart above.entry.hardwareNames entry.name known := by
  obtain ⟨name, _, done⟩ := bind_eq_ok.mp done
  obtain ⟨_, _, done⟩ := bind_eq_ok.mp done
  obtain ⟨number, _, done⟩ := bind_eq_ok.mp done
  cases done
  intro known member
  obtain ⟨upper, inside, rfl⟩ := List.mem_map.mp member
  refine ⟨upper, inside, name, rfl, ?_⟩
  intro suffix
  have short := suffix.length_le
  simp only [String.toList_append, List.length_append] at short
  have underscore : "_".toList.length = 1 := rfl
  omega

end Entry

def CodeLine.synonyms (line : CodeLine) : List String :=
  match Directive.readAll line.rest with
  | .ok directives => directives.filterMap Directive.synonym?
  | .error _ => []

namespace Catalog
open Outcome HardwareName

variable {settings : Settings} {layout : Layout} {text : String} {catalog : Catalog}

theorem Declares.below {line : CodeLine} {entry : Entry} (declares : Declares settings layout catalog line entry)
    (lower : entry.level ≠ .address)
    (free : ∀ synonym ∈ line.synonyms.dropLast, ¬ ("_" ++ Entry.dropUnderscore synonym).toList <:+ entry.name.toList) :
    ∃ above parent, entry.parent? = some above ∧ catalog.entries[above]? = some parent ∧
      ∀ known ∈ entry.hardwareNames, Below parent.hardwareNames known := by
  obtain ⟨level, above?, previous?, made, top, stored⟩ := declares
  have stands := Entry.ofWords_stands made
  cases above? with
  | none => exact absurd (stands.level.trans (top.mp rfl)) lower
  | some above =>
    refine ⟨above.place, above.entry, stands.parent, stored above rfl, ?_⟩
    obtain ⟨declared, first, kept⟩ := Entry.ofWords_eq_ok made
    obtain ⟨again, same, done⟩ := bind_eq_ok.mp made
    cases Except.ok.inj (first.symm.trans same)
    obtain ⟨directives, given, done⟩ := bind_eq_ok.mp done
    rw [CodeLine.synonyms, given, kept.name] at free
    exact Entry.foldlM_apply_below (kept.level ▸ lower) (Entry.declare_apart first) free done

/-- Every hardware name of a field or value goes on from a hardware name of the entry above it after an
underscore, if no synonym on its line that is followed by another one is how its own name ends. -/
theorem names_go_on_from_parent (accepted : read settings layout text = .ok catalog) {place : Nat} {entry : Entry}
    {line : CodeLine} (stored : catalog.entries[place]? = some entry) (declared : (codeLines text)[place]? = some line)
    (lower : entry.level ≠ .address)
    (free : ∀ synonym ∈ line.synonyms.dropLast, ¬ ("_" ++ Entry.dropUnderscore synonym).toList <:+ entry.name.toList) :
    ∃ above parent, entry.parent? = some above ∧ catalog.entries[above]? = some parent ∧
      ∀ known ∈ entry.hardwareNames, ∃ upper ∈ parent.hardwareNames, ∃ rest,
        known.name = upper.name ++ "_" ++ rest := by
  have inside : catalog.toList[place]? = some entry := by simpa [toList] using stored
  have declares := (List.forall₂_iff_get.mp (declares_of_read accepted)).2 place
    (List.getElem?_eq_some_iff.mp declared).1 (List.getElem?_eq_some_iff.mp inside).1
  simp only [List.get_eq_getElem, (List.getElem?_eq_some_iff.mp declared).2,
    (List.getElem?_eq_some_iff.mp inside).2] at declares
  exact declares.below lower free

theorem names_go_on_from_parent_two_synonyms :
    ∃ layout catalog entry above parent, ({} : Settings).layout = .ok layout ∧
      read {} layout "LW_A -alias LW_B\n  _F -alias X_F -alias Y\n" = .ok catalog ∧
      catalog.entries[1]? = some entry ∧ entry.parent? = some above ∧ catalog.entries[above]? = some parent ∧
      entry.hardwareNames.map HardwareName.name =
        ["LW_A_F", "LW_B_F", "LW_A_X_F", "LW_B_X_F", "LW_A_Y", "LW_B_Y", "LW_A_X_Y", "LW_B_X_Y"] ∧
      ∀ known ∈ entry.hardwareNames, ∃ upper ∈ parent.hardwareNames, ∃ rest,
        known.name = upper.name ++ "_" ++ rest := by
  have names : ((read {} ⟨8, 8, 14, by decide⟩ "LW_A -alias LW_B\n  _F -alias X_F -alias Y\n").toOption.bind
      fun catalog => catalog.entries[1]?.map fun entry =>
        (entry.name, entry.level, entry.hardwareNames.map HardwareName.name)) =
      some ("F", .field,
        ["LW_A_F", "LW_B_F", "LW_A_X_F", "LW_B_X_F", "LW_A_Y", "LW_B_Y", "LW_A_X_Y", "LW_B_X_Y"]) := by
    decide +kernel
  have synonyms : ((codeLines "LW_A -alias LW_B\n  _F -alias X_F -alias Y\n")[1]?.map CodeLine.synonyms) =
      some ["X_F", "Y"] := by
    decide +kernel
  obtain ⟨catalog, accepted, names⟩ := Option.bind_eq_some_iff.mp names
  obtain ⟨entry, stored, names⟩ := Option.map_eq_some_iff.mp names
  obtain ⟨line, declared, synonyms⟩ := Option.map_eq_some_iff.mp synonyms
  rw [toOption_eq_some] at accepted
  simp only [Prod.mk.injEq] at names
  obtain ⟨name, level, names⟩ := names
  have free : ∀ synonym ∈ line.synonyms.dropLast,
      ¬ ("_" ++ Entry.dropUnderscore synonym).toList <:+ entry.name.toList := by
    rw [synonyms, name]
    decide +kernel
  obtain ⟨above, parent, below, upper, goesOn⟩ :=
    names_go_on_from_parent accepted stored declared (by rw [level]; decide) free
  exact ⟨_, catalog, entry, above, parent, rfl, accepted, stored, below, upper, names, goesOn⟩

/-- The first synonym is how the entry's name ends, so the second one is put in for a part of the name
above. -/
theorem names_leave_parent :
    ∃ layout catalog entry parent, ({} : Settings).layout = .ok layout ∧
      read {} layout "LW_X_Y\n    _Y_Z -alias Z -alias Q\n" = .ok catalog ∧
      catalog.entries[1]? = some entry ∧ entry.level = .field ∧ entry.parent? = some 0 ∧
      catalog.entries[0]? = some parent ∧
      ∃ known ∈ entry.hardwareNames, ¬ ∃ upper ∈ parent.hardwareNames, ∃ rest,
        known.name = upper.name ++ "_" ++ rest := by
  have names : ((read {} ⟨8, 8, 14, by decide⟩ "LW_X_Y\n    _Y_Z -alias Z -alias Q\n").toOption.bind
      fun catalog => catalog.entries[1]?.bind fun entry => catalog.entries[0]?.map fun parent =>
        (entry.level, entry.parent?, entry.hardwareNames, parent.hardwareNames)) =
      some (.field, some 0,
        [⟨"LW_X_Y_Y_Z", "RAW"⟩, ⟨"LW_X_Y_Z", "RAW"⟩, ⟨"LW_X_Y_Q", "RAW"⟩, ⟨"LW_X_Q", "RAW"⟩],
        [⟨"LW_X_Y", "RAW"⟩]) := by
    decide +kernel
  obtain ⟨catalog, accepted, names⟩ := Option.bind_eq_some_iff.mp names
  obtain ⟨entry, stored, names⟩ := Option.bind_eq_some_iff.mp names
  obtain ⟨parent, upper, names⟩ := Option.map_eq_some_iff.mp names
  rw [toOption_eq_some] at accepted
  simp only [Prod.mk.injEq] at names
  obtain ⟨level, below, names, uppers⟩ := names
  refine ⟨_, catalog, entry, parent, rfl, accepted, stored, level, below, upper, ⟨"LW_X_Q", "RAW"⟩, by simp [names], ?_⟩
  rintro ⟨known, member, rest, same⟩
  rw [uppers, List.mem_singleton] at member
  subst member
  simpa using congrArg String.toList same

end Catalog
end RegisterCatalog
