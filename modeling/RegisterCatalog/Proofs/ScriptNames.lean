import RegisterCatalog.Artifact.Bindings
import RegisterCatalog.Proofs.HeaderConstants
import RegisterCatalog.Proofs.Spacing
import RegisterCatalog.Proofs.VirtualNames

/-! Scripts know the entries by short names. Every symbol starts with the same prefix, so no two short names are equal,
and the number under a short name is the one that an identity header has under the symbol. -/

namespace RegisterCatalog

theorem Chars.forall_groupByFour {good : Char → Prop} {digits : List Char} (mark : good '_') (each : ∀ c ∈ digits, good c) :
    ∀ c ∈ groupByFour digits, good c := by
  induction digits with
  | nil => exact each
  | cons digit rest ih =>
    rw [List.forall_mem_cons] at each
    unfold groupByFour
    split <;> simp only [List.forall_mem_cons]
    · exact ⟨each.1, mark, ih each.2⟩
    · exact ⟨each.1, ih each.2⟩

theorem Text.unbroken_hexConstant (number : Nat) : Unbroken (hexConstant number) := by
  unfold hexConstant
  split
  · exact unbroken_toString number
  · unfold Unbroken
    rw [String.toList_ofList, List.forall_mem_cons, List.forall_mem_cons]
    exact ⟨by decide, by decide, Chars.forall_groupByFour (by decide) (Chars.forall_hexDigits (by decide) number)⟩

namespace AllowList
open Outcome

/-- A word of an allow list stands for itself and, if it ends with `*`, for all symbols that start as it does. -/
def Admits (word symbol : String) : Prop :=
  word = symbol ∨ ∃ start rest, word = start ++ "*" ∧ symbol = start ++ rest

theorem allows_ofWord (word symbol : String) : (AllowPattern.ofWord word).allows symbol ↔ Admits word symbol := by
  unfold AllowPattern.ofWord
  cases cut : Text.dropEnd? "*" word with
  | none =>
    have unstarred (start : String) : word ≠ start ++ "*" := by
      intro starred
      rw [starred, Text.dropEnd?_append] at cut
      cases cut
    simp [AllowPattern.allows, Admits, unstarred]
  | some start =>
    obtain rfl := Text.dropEnd?_eq_some cut
    rw [AllowPattern.allows, Text.startsWith_iff]
    constructor
    · rintro ⟨rest, rfl⟩
      exact .inr ⟨start, rest, rfl, rfl⟩
    · rintro (rfl | ⟨other, rest, same, rfl⟩)
      · exact ⟨"*", rfl⟩
      · rw [same, Text.dropEnd?_append, Option.some.injEq] at cut
        exact ⟨rest, by rw [cut]⟩

theorem readLine_eq_ok {previous? word? : Option String} {line : SourceLine}
    (done : readLine previous? line.text = .ok word?) : line.words = word?.toList := by
  unfold readLine at done
  unfold SourceLine.words
  split at done
  next none =>
    cases done
    exact none
  next => cases done
  next word single =>
    obtain ⟨_, _, done⟩ := bind_eq_ok.mp done
    cases done
    exact single

theorem readWords_eq_ok {previous? : Option String} {lines : List SourceLine} {words : List String}
    (done : readWords previous? lines = .ok words) : words = lines.flatMap SourceLine.words := by
  induction lines generalizing previous? words with
  | nil =>
    cases done
    rfl
  | cons line rest ih =>
    obtain ⟨word?, first, done⟩ := bind_eq_ok.mp done
    rw [List.flatMap_cons, readLine_eq_ok (mapError_eq_ok first)]
    cases word? with
    | none => exact ih done
    | some word =>
      obtain ⟨others, later, done⟩ := bind_eq_ok.mp done
      cases done
      rw [ih later]
      rfl

theorem allows_iff {source : String} {allowed : AllowList} (granted : read source = .ok allowed) (symbol : String) :
    allowed.allows symbol ↔ ∃ word ∈ (sourceLines source).flatMap SourceLine.words, Admits word symbol := by
  obtain ⟨words, found, done⟩ := bind_eq_ok.mp granted
  cases done
  rw [allows, List.any_map, List.any_eq_true, readWords_eq_ok found]
  simp only [Function.comp_apply, allows_ofWord]

end AllowList

namespace Bindings
open Outcome

variable {settings : Settings} {layout : Layout} {text : String} {catalog : Catalog} {entry : Entry}

theorem shortName_spec (accepted : Catalog.read settings layout text = .ok catalog) (allowed : AllowList)
    (member : entry ∈ catalog.toList) :
    settings.symbolPrefix ++ shortName ⟨catalog, allowed, settings.symbolPrefix⟩ entry = entry.symbol ∧
      Text.Unbroken (shortName ⟨catalog, allowed, settings.symbolPrefix⟩ entry) := by
  obtain ⟨short, symbol, unbroken⟩ := Catalog.symbol_after_prefix accepted member
  have cut : shortName ⟨catalog, allowed, settings.symbolPrefix⟩ entry = short := by
    rw [shortName, Text.dropStart?_eq_some.mpr symbol, Option.getD_some]
  rw [cut]
  exact ⟨symbol.symm, unbroken⟩

theorem shortNames_nodup (accepted : Catalog.read settings layout text = .ok catalog) (allowed : AllowList) :
    (catalog.toList.map (shortName ⟨catalog, allowed, settings.symbolPrefix⟩)).Nodup := by
  have symbols := Catalog.symbols_distinct accepted
  rw [← List.map_congr_left fun entry member => (shortName_spec accepted allowed member).1] at symbols
  exact List.Nodup.of_map (settings.symbolPrefix ++ ·) (by rwa [List.map_map])

theorem entryLine_eq (bindings : Bindings) (entry : Entry) : bindings.entryLine entry =
    "    \"" ++ bindings.shortName entry ++ "\": " ++ Text.hexConstant entry.id.toNat ++ "," := rfl

theorem linesOf_text (accepted : Catalog.read settings layout text = .ok catalog) (allowed : AllowList) :
    Text.linesOf (Bindings.text ⟨catalog, allowed, settings.symbolPrefix⟩) =
      lines ⟨catalog, allowed, settings.symbolPrefix⟩ ++ [""] := by
  apply Text.linesOf_ofLines
  have printed : ∀ entry ∈ entries ⟨catalog, allowed, settings.symbolPrefix⟩,
      Text.OneLine (entryLine ⟨catalog, allowed, settings.symbolPrefix⟩ entry) := by
    intro entry listed
    have short := (shortName_spec accepted allowed (List.mem_filter.mp listed).1).2.oneLine
    have number := (Text.unbroken_hexConstant entry.id.toNat).oneLine
    simp only [entryLine_eq, Text.oneLine_append]
    exact ⟨⟨⟨⟨by decide, short⟩, by decide⟩, number⟩, by decide⟩
  rw [lines]
  simp only [List.forall_mem_append, List.forall_mem_map]
  exact ⟨⟨by decide, printed⟩, by decide⟩

/-- A script has one line for each entry whose symbol the list admits, in the order of the catalog. No two entries have
the same short name, and the number on a line is the one in the header of the entry's level. -/
theorem short_names_bound_to_ids {source : String} {allowed : AllowList}
    (accepted : Catalog.read settings layout text = .ok catalog) (granted : AllowList.read source = .ok allowed) :
    (∀ symbol, allowed.allows symbol ↔
      ∃ word ∈ (sourceLines source).flatMap SourceLine.words, AllowList.Admits word symbol) ∧
    ∃ short : Entry → String,
      Text.linesOf (Bindings.text ⟨catalog, allowed, settings.symbolPrefix⟩) =
        ["# Generated by hal-gen. Do not edit.", "", "LWHAL_IDS = \x7b"] ++
          (catalog.toList.filter fun entry => allowed.allows entry.symbol).map
            (fun entry => "    \"" ++ short entry ++ "\": " ++ Text.hexConstant entry.id.toNat ++ ",") ++ ["\x7d", ""] ∧
      (catalog.toList.map short).Nodup ∧
      ∀ entry ∈ catalog.toList, settings.symbolPrefix ++ short entry = entry.symbol ∧
        ∃ word number, (IdentityHeader.idConstants ⟨catalog, entry.level, layout⟩).filter
            (fun constant => constant.name = entry.symbol) = [⟨entry.symbol, word⟩] ∧
          IdentityHeader.Constant.line ⟨entry.symbol, word⟩ ∈ IdentityHeader.lines ⟨catalog, entry.level, layout⟩ ∧
          Chars.literal? word.toList = some number ∧
          Chars.literal? (Text.hexConstant entry.id.toNat).toList = some number := by
  refine ⟨AllowList.allows_iff granted, shortName ⟨catalog, allowed, settings.symbolPrefix⟩, ?_,
    shortNames_nodup accepted allowed, ?_⟩
  · rw [linesOf_text accepted allowed, lines, List.append_assoc _ _ [""]]
    rfl
  · intro entry member
    have defined := IdentityHeader.idConstant_mem member layout
    have once := IdentityHeader.filter_name (IdentityHeader.names_idConstants_nodup accepted entry.level) defined
    refine ⟨(shortName_spec accepted allowed member).1, Text.hexWord entry.id, entry.id.toNat, once, ?_,
      Text.literal?_hexWord entry.id, Text.literal?_hexConstant entry.id.toNat⟩
    rw [IdentityHeader.lines_eq, IdentityHeader.symbolLines_eq catalog entry.level layout]
    exact List.mem_append_left _ (List.mem_append_right _ (List.mem_map_of_mem defined))

theorem short_names_bound_to_ids_starred :
    ∃ layout catalog allowed, ({} : Settings).layout = .ok layout ∧
      Catalog.read {} layout "LW_A\n  _F\n    _V\nLW_B\nLW_C\n" = .ok catalog ∧
      AllowList.read "LWHAL_A_*\nLWHAL_B\n" = .ok allowed ∧
      Text.linesOf (Bindings.text ⟨catalog, allowed, "LWHAL_"⟩) =
        ["# Generated by hal-gen. Do not edit.", "", "LWHAL_IDS = \x7b", "    \"A_F\": 0x8001_0100,",
          "    \"A_F_V\": 0xc001_0101,", "    \"B\": 0x4002_0000,", "\x7d", ""] ∧
      ∃ short : Entry → String, (catalog.toList.map short).Nodup ∧
        ∃ entry ∈ catalog.toList, "LWHAL_" ++ short entry = "LWHAL_A_F_V" ∧
          ∃ word number, (IdentityHeader.idConstants ⟨catalog, .value, layout⟩).filter
              (fun constant => constant.name = "LWHAL_A_F_V") = [⟨"LWHAL_A_F_V", word⟩] ∧
            Chars.literal? word.toList = some number ∧ Chars.literal? "0xc001_0101".toList = some number := by
  have list : AllowList.read "LWHAL_A_*\nLWHAL_B\n" = .ok ⟨[.startingWith "LWHAL_A_", .exactly "LWHAL_B"]⟩ := by
    decide +kernel
  have evaluated : (Catalog.read {} ⟨8, 8, 14, by decide⟩ "LW_A\n  _F\n    _V\nLW_B\nLW_C\n").toOption.map (fun catalog =>
      (Bindings.lines ⟨catalog, ⟨[.startingWith "LWHAL_A_", .exactly "LWHAL_B"]⟩, "LWHAL_"⟩,
        catalog.toList[2]?.map fun entry => (entry.symbol, entry.level, Text.hexConstant entry.id.toNat))) =
      some (["# Generated by hal-gen. Do not edit.", "", "LWHAL_IDS = \x7b", "    \"A_F\": 0x8001_0100,",
          "    \"A_F_V\": 0xc001_0101,", "    \"B\": 0x4002_0000,", "\x7d"],
        some ("LWHAL_A_F_V", .value, "0xc001_0101")) := by
    decide +kernel
  obtain ⟨catalog, accepted, evaluated⟩ := Option.map_eq_some_iff.mp evaluated
  rw [toOption_eq_some] at accepted
  obtain ⟨lines, third⟩ := Prod.mk.inj evaluated
  obtain ⟨entry, stored, third⟩ := Option.map_eq_some_iff.mp third
  simp only [Prod.mk.injEq] at third
  obtain ⟨symbol, level, printed⟩ := third
  obtain ⟨_, short, _, distinct, each⟩ := short_names_bound_to_ids accepted list
  obtain ⟨whole, word, number, once, _, fixed, grouped⟩ := each entry (List.mem_of_getElem? stored)
  rw [symbol, level] at once
  rw [printed] at grouped
  refine ⟨⟨8, 8, 14, by decide⟩, catalog, _, rfl, accepted, list, ?_, short, distinct, entry, List.mem_of_getElem? stored,
    whole.trans symbol, word, number, once, fixed, grouped⟩
  exact (linesOf_text accepted _).trans (congrArg (· ++ [""]) lines)

end Bindings
end RegisterCatalog
