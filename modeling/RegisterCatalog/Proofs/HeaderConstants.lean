import RegisterCatalog.Proofs.IdOrder
import RegisterCatalog.Proofs.TableRows
import RegisterCatalog.Proofs.UnbrokenSymbols

/-! The constants of identity headers. The three headers share out the entries of a catalog, and in each of them the
ids grow from line to line. Besides, a header has constants of its own; it defines a name twice exactly if an
entry of its level has the name of one of these as its symbol. -/

namespace RegisterCatalog.IdentityHeader
open Catalog Outcome

def symbolLine (entry : Entry) : String := "#define " ++ entry.symbol ++ " " ++ Text.hexWord entry.id

def symbolLines (catalog : Catalog) (level : Level) : List String :=
  (catalog.toList.filter fun entry => entry.level = level).map symbolLine

def guardLines (level : Level) : List String :=
  [banner, "#ifndef " ++ includeGuard level, "#define " ++ includeGuard level, "", "#ifndef LWHAL_ID_LAYOUT",
    "#define LWHAL_ID_LAYOUT"]

/-- The lines before the symbols, whatever these are. -/
def opening (level : Level) (layout : Layout) : List String :=
  guardLines level ++ (partConstants layout ++ tagConstants).map Constant.line ++ ["#endif", ""]

def closing (level : Level) : List String := ["", "#endif // " ++ includeGuard level]

theorem symbolLines_eq (catalog : Catalog) (level : Level) (layout : Layout) :
    symbolLines catalog level = (idConstants ⟨catalog, level, layout⟩).map Constant.line := by
  rw [idConstants, List.map_map]
  rfl

theorem lines_eq (catalog : Catalog) (level : Level) (layout : Layout) :
    lines ⟨catalog, level, layout⟩ = opening level layout ++ symbolLines catalog level ++ closing level := by
  rw [symbolLines_eq catalog level layout]
  rfl

theorem entries_perm (entries : List Entry) :
    (Level.all.flatMap fun level => entries.filter fun entry => entry.level = level).Perm entries := by
  induction entries with
  | nil => exact List.Perm.nil
  | cons entry rest ih =>
    have middle : ∀ before after : List Entry, (before ++ entry :: after).Perm (entry :: (before ++ after)) :=
      fun _ _ => List.perm_middle
    simp only [Level.all, List.flatMap_cons, List.flatMap_nil, List.append_nil] at ih ⊢
    cases level : entry.level with
    | address => simpa [List.filter_cons, level] using ih
    | field =>
      simp only [List.filter_cons, level, reduceCtorEq, decide_false, decide_true, if_true, Bool.false_eq_true, if_false]
      exact (middle _ _).trans (ih.cons entry)
    | value =>
      simp only [List.filter_cons, level, reduceCtorEq, decide_false, decide_true, if_true, Bool.false_eq_true, if_false]
      rw [← List.append_assoc] at ih ⊢
      exact (middle _ _).trans (ih.cons entry)

theorem symbolLine_id {first second : Entry} (same : symbolLine first = symbolLine second) : first.id = second.id := by
  have length (word : UInt32) : (Text.hexWord word).toList.length = 10 := by
    rw [String.length_toList, Text.length_hexWord]
  have texts := congrArg String.toList same
  simp only [symbolLine, String.toList_append] at texts
  have words := List.append_inj_right' texts ((length _).trans (length _).symm)
  exact Text.hexWord_injective (String.toList_inj.mp words)

variable {settings : Settings} {layout : Layout} {text : String} {catalog : Catalog}

/-- Of each header, only the symbols depend on the catalog. It lists those of the entries of its level, in their order
and with growing ids, by number as well as by spelling; and all headers together list every entry once. -/
theorem symbols_listed_in_order (sized : settings.layout = .ok layout) (accepted : read settings layout text = .ok catalog) :
    (∀ level, lines ⟨catalog, level, layout⟩ = opening level layout ++
      (catalog.toList.filter fun entry => entry.level = level).map symbolLine ++ closing level) ∧
    (Level.all.flatMap (symbolLines catalog)).Perm (catalog.toList.map symbolLine) ∧
    (catalog.toList.map symbolLine).Nodup ∧
    ∀ level, ((catalog.toList.filter fun entry => entry.level = level).map fun entry => Text.hexWord entry.id).Pairwise
      fun first second => first < second ∧ ∃ number greater, Chars.literal? first.toList = some number ∧
        Chars.literal? second.toList = some greater ∧ number < greater := by
  refine ⟨fun level => lines_eq catalog level layout, ?_, ?_, ?_⟩
  · have perm := (entries_perm catalog.toList).map symbolLine
    rw [List.map_flatMap] at perm
    exact perm
  · have distinct := ids_nodup sized accepted
    rw [List.Nodup, List.pairwise_map] at distinct ⊢
    exact distinct.imp fun different same => different (symbolLine_id same)
  · intro level
    have increasing := ids_increasing sized accepted level
    rw [List.pairwise_map] at increasing ⊢
    apply increasing.imp
    intro first second less
    exact ⟨Text.hexWord_lt less, _, _, Text.literal?_hexWord first.id, Text.literal?_hexWord second.id,
      UInt32.lt_iff_toNat_lt.mp less⟩

theorem symbols_listed_in_order_two_addresses :
    ∃ layout catalog, ({} : Settings).layout = .ok layout ∧
      read {} layout "LW_A\n  _F\n    _V\n  _G\nLW_B\n  _A\n" = .ok catalog ∧
      symbolLines catalog .address = ["#define LWHAL_A 0x40010000", "#define LWHAL_B 0x40020000"] ∧
      symbolLines catalog .field =
        ["#define LWHAL_A_F 0x80010100", "#define LWHAL_A_G 0x80010200", "#define LWHAL_B_A 0x80020100"] ∧
      symbolLines catalog .value = ["#define LWHAL_A_F_V 0xc0010101"] ∧
      (Level.all.flatMap (symbolLines catalog)).Perm (catalog.toList.map symbolLine) ∧
      ((catalog.toList.filter fun entry => entry.level = .field).map fun entry => Text.hexWord entry.id).Pairwise
        fun first second => first < second ∧ ∃ number greater, Chars.literal? first.toList = some number ∧
          Chars.literal? second.toList = some greater ∧ number < greater := by
  have evaluated : ((read {} ⟨8, 8, 14, by decide⟩ "LW_A\n  _F\n    _V\n  _G\nLW_B\n  _A\n").toOption.map fun catalog =>
      Level.all.map (symbolLines catalog)) =
      some [["#define LWHAL_A 0x40010000", "#define LWHAL_B 0x40020000"],
        ["#define LWHAL_A_F 0x80010100", "#define LWHAL_A_G 0x80010200", "#define LWHAL_B_A 0x80020100"],
        ["#define LWHAL_A_F_V 0xc0010101"]] := by
    decide +kernel
  obtain ⟨catalog, accepted, evaluated⟩ := Option.map_eq_some_iff.mp evaluated
  rw [toOption_eq_some] at accepted
  simp only [Level.all, List.map_cons, List.map_nil, List.cons.injEq] at evaluated
  obtain ⟨_, together, _, growing⟩ := symbols_listed_in_order rfl accepted
  exact ⟨_, catalog, rfl, accepted, evaluated.1, evaluated.2.1, evaluated.2.2.1, together, growing .field⟩

/-- The constant that a line defines: its name, and the words after it. -/
def Constant.ofLine? (line : String) : Option Constant :=
  match Text.words line with
  | "#define" :: name :: rest => some ⟨name, " ".intercalate rest⟩
  | _ => none

/-- What a reader of a header finds defined in it, line by line. -/
def definitionsIn (text : String) : List Constant := (Text.linesOf text).filterMap Constant.ofLine?

/-- A constant whose name and value are words. -/
structure Constant.Plain (constant : Constant) : Prop where
  name : Text.Unbroken constant.name
  named : constant.name ≠ ""
  value : Text.Unbroken constant.value
  valued : constant.value ≠ ""

theorem Constant.line_eq (constant : Constant) :
    constant.line = "#define " ++ constant.name ++ " " ++ constant.value := rfl

theorem Constant.Plain.ofLine?_line {constant : Constant} (plain : constant.Plain) :
    ofLine? constant.line = some constant := by
  have single {text : String} (some : text ≠ "") (unbroken : Text.Unbroken text) :
      Chars.words text.toList = [text.toList] :=
    Chars.words_single (fun empty => some (String.toList_eq_nil_iff.mp empty)) unbroken
  have line : constant.line.toList = "#define".toList ++ ' ' :: (constant.name.toList ++ ' ' :: constant.value.toList) := by
    simp [line_eq]
  have words : Text.words constant.line = ["#define", constant.name, constant.value] := by
    rw [Text.words, line, Chars.words_append _ _ (by decide), Chars.words_append _ _ (by decide),
      single (by decide) (by decide), single plain.named plain.name, single plain.valued plain.value]
    simp
  simp [ofLine?, words]

theorem Constant.Plain.oneLine_line {constant : Constant} (plain : constant.Plain) : Text.OneLine constant.line := by
  rw [line_eq, Text.oneLine_append, Text.oneLine_append, Text.oneLine_append]
  exact ⟨⟨⟨by decide, plain.name.oneLine⟩, by decide⟩, plain.value.oneLine⟩

theorem filterMap_lines {constants : List Constant} (plain : ∀ constant ∈ constants, constant.Plain) :
    (constants.map Constant.line).filterMap Constant.ofLine? = constants := by
  induction constants with
  | nil => rfl
  | cons constant rest ih =>
    rw [List.forall_mem_cons] at plain
    rw [List.map_cons, List.filterMap_cons, plain.1.ofLine?_line, ih plain.2]

/-- What a header defines whatever the catalog is. Which names these are depends on the level alone. -/
def ownConstants (level : Level) (layout : Layout) : List Constant :=
  [⟨includeGuard level, ""⟩, ⟨"LWHAL_ID_LAYOUT", ""⟩] ++ (partConstants layout ++ tagConstants)

def ownNames (level : Level) : List String :=
  [includeGuard level, "LWHAL_ID_LAYOUT", "LWHAL_ID_VALUE_SHIFT", "LWHAL_ID_VALUE_MASK", "LWHAL_ID_FIELD_SHIFT",
    "LWHAL_ID_FIELD_MASK", "LWHAL_ID_ADDRESS_SHIFT", "LWHAL_ID_ADDRESS_MASK", "LWHAL_ID_TYPE_SHIFT",
    "LWHAL_ID_TYPE_MASK", "LWHAL_ID_TYPE_ADDRESS", "LWHAL_ID_TYPE_FIELD", "LWHAL_ID_TYPE_VALUE"]

theorem includeGuard_eq (level : Level) : includeGuard level =
    match level with
    | .address => "LWHAL_ADDR_IDS_H"
    | .field => "LWHAL_FIELD_IDS_H"
    | .value => "LWHAL_VALUE_IDS_H" := by
  cases level <;> rfl

theorem tagConstants_eq : tagConstants =
    [⟨"LWHAL_ID_TYPE_ADDRESS", "1"⟩, ⟨"LWHAL_ID_TYPE_FIELD", "2"⟩, ⟨"LWHAL_ID_TYPE_VALUE", "3"⟩] := by
  rfl

theorem names_ownConstants (level : Level) (layout : Layout) :
    (ownConstants level layout).map Constant.name = ownNames level := by
  rw [ownConstants, List.map_append, List.map_append, tagConstants_eq]
  rfl

theorem ownNames_nodup (level : Level) : (ownNames level).Nodup := by
  rw [ownNames, includeGuard_eq]
  cases level <;> decide

theorem Constant.plain_word {name : String} (unbroken : Text.Unbroken name) (named : name ≠ "") (word : UInt32) :
    Plain ⟨name, Text.hexWord word⟩ := by
  refine ⟨unbroken, named, Text.unbroken_hexWord word, ?_⟩
  intro empty
  have digits := Text.toList_hexWord word
  rw [show Text.hexWord word = "" from empty] at digits
  cases digits

theorem Constant.plain_number {name : String} (unbroken : Text.Unbroken name) (named : name ≠ "") (number : Nat) :
    Plain ⟨name, toString number⟩ := by
  refine ⟨unbroken, named, Text.unbroken_toString number, ?_⟩
  intro empty
  have digits := Nat.toString_eq_ofList_toDigits.symm.trans empty
  exact Nat.toDigits_ne_nil (String.ofList_eq_empty_iff.mp digits)

theorem partConstants_plain (layout : Layout) : ∀ constant ∈ partConstants layout, constant.Plain := by
  intro constant member
  obtain ⟨⟨part, shift, mask⟩, listed, inside⟩ := List.mem_flatMap.mp member
  have unbroken : Text.Unbroken part := by
    simp only [List.mem_cons, Prod.mk.injEq, List.not_mem_nil, or_false] at listed
    rcases listed with ⟨rfl, _⟩ | ⟨rfl, _⟩ | ⟨rfl, _⟩ | ⟨rfl, _⟩ <;> decide
  have name {ending : String} (last : Text.Unbroken ending) : Text.Unbroken ("LWHAL_ID_" ++ part ++ ending) := by
    rw [Text.unbroken_append, Text.unbroken_append]
    exact ⟨⟨by decide, unbroken⟩, last⟩
  rcases List.mem_cons.mp inside with rfl | inside
  · exact Constant.plain_number (name (by decide)) (by simp) shift
  · cases List.mem_singleton.mp inside
    exact Constant.plain_word (name (by decide)) (by simp) mask

theorem ownConstants_plain (layout : Layout) : ∀ constant ∈ partConstants layout ++ tagConstants, constant.Plain := by
  rw [List.forall_mem_append, tagConstants_eq]
  simp only [List.forall_mem_cons, List.not_mem_nil, false_implies, implies_true, and_true]
  refine ⟨partConstants_plain layout, ?_, ?_, ?_⟩
  all_goals exact ⟨by decide, by decide, by decide, by decide⟩

variable {layout : Layout} {text : String} {catalog : Catalog}

theorem idConstants_plain (accepted : read {} layout text = .ok catalog) (level : Level) :
    ∀ constant ∈ idConstants ⟨catalog, level, layout⟩, constant.Plain := by
  intro constant member
  obtain ⟨entry, listed, rfl⟩ := List.mem_map.mp member
  obtain ⟨short, symbol, unbroken⟩ := symbol_after_prefix accepted (List.mem_filter.mp listed).1
  have start : ({} : Settings).symbolPrefix = "LWHAL_" := rfl
  rw [symbol, start]
  exact Constant.plain_word ((Text.unbroken_append _ _).mpr ⟨by decide, unbroken⟩) (by simp) _

theorem lines_oneLine (accepted : read {} layout text = .ok catalog) (level : Level) :
    ∀ line ∈ lines ⟨catalog, level, layout⟩, Text.OneLine line := by
  have printed {constants : List Constant} (plain : ∀ constant ∈ constants, constant.Plain) :
      ∀ line ∈ constants.map Constant.line, Text.OneLine line :=
    List.forall_mem_map.mpr fun constant member => (plain constant member).oneLine_line
  have guard : Text.OneLine (includeGuard level) := by
    rw [includeGuard_eq]
    cases level <;> decide
  have first : ∀ line ∈ guardLines level, Text.OneLine line := by
    simp only [guardLines, List.forall_mem_cons, Text.oneLine_append]
    exact ⟨by decide, ⟨by decide, guard⟩, ⟨by decide, guard⟩, by decide, by decide, by decide, by simp⟩
  have last : ∀ line ∈ closing level, Text.OneLine line := by
    simp only [closing, List.forall_mem_cons, Text.oneLine_append]
    exact ⟨by decide, ⟨by decide, guard⟩, by simp⟩
  rw [lines_eq, opening, symbolLines_eq]
  simp only [List.forall_mem_append]
  exact ⟨⟨⟨⟨first, printed (ownConstants_plain layout)⟩, by decide⟩, printed (idConstants_plain accepted level)⟩, last⟩

theorem definitions_text (accepted : read {} layout text = .ok catalog) (level : Level) :
    definitionsIn (IdentityHeader.text ⟨catalog, level, layout⟩) =
      ownConstants level layout ++ idConstants ⟨catalog, level, layout⟩ := by
  have first : (guardLines level).filterMap Constant.ofLine? =
      [⟨includeGuard level, ""⟩, ⟨"LWHAL_ID_LAYOUT", ""⟩] := by
    rw [guardLines, includeGuard_eq]
    cases level <;> rfl
  have middle : ["#endif", ""].filterMap Constant.ofLine? = [] := by rfl
  have last : (closing level ++ [""]).filterMap Constant.ofLine? = [] := by
    rw [closing, includeGuard_eq]
    cases level <;> rfl
  have own := filterMap_lines (ownConstants_plain layout)
  have ids := filterMap_lines (idConstants_plain accepted level)
  rw [definitionsIn, IdentityHeader.text, Text.linesOf_ofLines (lines_oneLine accepted level), lines_eq, opening,
    symbolLines_eq catalog level layout, List.append_assoc _ (closing level)]
  simp only [List.filterMap_append, first, own, middle, ids, ownConstants, List.append_nil]
  rw [← List.filterMap_append, last, List.append_nil]

theorem names_idConstants_nodup {settings : Settings} (accepted : read settings layout text = .ok catalog) (level : Level) :
    ((idConstants ⟨catalog, level, layout⟩).map Constant.name).Nodup := by
  rw [idConstants, List.map_map]
  exact (symbols_distinct accepted).sublist (List.filter_sublist.map Entry.symbol)

theorem idConstant_mem {entry : Entry} (member : entry ∈ catalog.toList) (layout : Layout) :
    ⟨entry.symbol, Text.hexWord entry.id⟩ ∈ idConstants ⟨catalog, entry.level, layout⟩ :=
  List.mem_map.mpr ⟨entry, List.mem_filter.mpr ⟨member, by simp⟩, rfl⟩

theorem filter_name {constants : List Constant} {constant : Constant} (distinct : (constants.map Constant.name).Nodup)
    (member : constant ∈ constants) : constants.filter (fun other => other.name = constant.name) = [constant] := by
  induction constants with
  | nil => cases member
  | cons first rest ih =>
    rw [List.map_cons, List.nodup_cons] at distinct
    rcases List.mem_cons.mp member with rfl | later
    · have none : rest.filter (fun other => other.name = constant.name) = [] := by
        rw [List.filter_eq_nil_iff]
        intro other inside
        rw [decide_eq_true_eq]
        exact fun same => distinct.1 (same ▸ List.mem_map_of_mem inside)
      simp [none]
    · have other : first.name ≠ constant.name := fun same => distinct.1 (same ▸ List.mem_map_of_mem later)
      rw [List.filter_cons_of_neg (by simpa using other), ih distinct.2 later]

/-- No entry of the level has a name of the header's own as its symbol. -/
def Unreserved (catalog : Catalog) (level : Level) : Prop :=
  ∀ entry ∈ catalog.toList, entry.level = level → entry.symbol ∉ ownNames level

theorem names_nodup_iff (accepted : read {} layout text = .ok catalog) (level : Level) :
    ((ownConstants level layout ++ idConstants ⟨catalog, level, layout⟩).map Constant.name).Nodup ↔
      Unreserved catalog level := by
  have own := ownNames_nodup level
  have ids := names_idConstants_nodup accepted level
  rw [List.map_append, names_ownConstants, List.nodup_append]
  constructor
  · rintro ⟨_, _, apart⟩ entry member rfl reserved
    exact apart _ reserved _ (List.mem_map_of_mem (idConstant_mem member layout)) rfl
  · intro free
    refine ⟨own, ids, ?_⟩
    rintro name reserved _ named rfl
    obtain ⟨constant, inside, rfl⟩ := List.mem_map.mp named
    obtain ⟨entry, listed, rfl⟩ := List.mem_map.mp inside
    obtain ⟨member, here⟩ := List.mem_filter.mp listed
    exact free entry member (by simpa using here) reserved

/-- A header defines its own constants and one for each entry of its level. It defines no name twice, and each
constant is read back as it was computed, exactly if no entry of the level takes a name of the header's own. -/
theorem names_distinct_iff_unreserved (accepted : read {} layout text = .ok catalog) (level : Level) :
    definitionsIn (IdentityHeader.text ⟨catalog, level, layout⟩) =
      ownConstants level layout ++ idConstants ⟨catalog, level, layout⟩ ∧
    (((definitionsIn (IdentityHeader.text ⟨catalog, level, layout⟩)).map Constant.name).Nodup ↔ Unreserved catalog level) ∧
    (Unreserved catalog level → ∀ constant ∈ ownConstants level layout ++ idConstants ⟨catalog, level, layout⟩,
      (definitionsIn (IdentityHeader.text ⟨catalog, level, layout⟩)).filter (fun other => other.name = constant.name) =
        [constant]) := by
  rw [definitions_text accepted level]
  have distinct := names_nodup_iff accepted level
  exact ⟨rfl, distinct, fun free constant member => filter_name (distinct.mpr free) member⟩

theorem names_distinct_iff_unreserved_longer_name :
    ∃ layout catalog, ({} : Settings).layout = .ok layout ∧
      read {} layout "LW_ID\n  _TYPE\n    _VALUES\n" = .ok catalog ∧ Unreserved catalog .value ∧
      ((definitionsIn (IdentityHeader.text ⟨catalog, .value, layout⟩)).map Constant.name).Nodup ∧
      (definitionsIn (IdentityHeader.text ⟨catalog, .value, layout⟩)).filter (fun other => other.name = "LWHAL_ID_TYPE_VALUE") =
        [⟨"LWHAL_ID_TYPE_VALUE", "3"⟩] ∧
      (definitionsIn (IdentityHeader.text ⟨catalog, .value, layout⟩)).filter (fun other => other.name = "LWHAL_ID_TYPE_VALUES") =
        [⟨"LWHAL_ID_TYPE_VALUES", "0xc0010101"⟩] := by
  have evaluated : (read {} ⟨8, 8, 14, by decide⟩ "LW_ID\n  _TYPE\n    _VALUES\n").toOption.map (fun catalog =>
      (catalog.toList.map Entry.symbol, idConstants ⟨catalog, .value, ⟨8, 8, 14, by decide⟩⟩)) =
      some (["LWHAL_ID", "LWHAL_ID_TYPE", "LWHAL_ID_TYPE_VALUES"], [⟨"LWHAL_ID_TYPE_VALUES", "0xc0010101"⟩]) := by
    decide +kernel
  obtain ⟨catalog, accepted, evaluated⟩ := Option.map_eq_some_iff.mp evaluated
  rw [toOption_eq_some] at accepted
  obtain ⟨symbols, ids⟩ := Prod.mk.inj evaluated
  have free : Unreserved catalog .value := by
    have others : ∀ symbol ∈ catalog.toList.map Entry.symbol, symbol ∉ ownNames .value := by
      rw [symbols, ownNames, includeGuard_eq]
      decide
    exact fun entry member _ => others _ (List.mem_map_of_mem member)
  obtain ⟨_, distinct, once⟩ := names_distinct_iff_unreserved accepted .value
  refine ⟨_, catalog, rfl, accepted, free, distinct.mpr free, once free ⟨_, "3"⟩ ?_, once free ⟨_, "0xc0010101"⟩ ?_⟩
  · exact List.mem_append_left _ (List.mem_append_right _ (List.mem_append_right _ (by rw [tagConstants_eq]; decide)))
  · exact List.mem_append_right _ (by rw [ids]; exact List.mem_singleton_self _)

theorem symbol_takes_name_of_tag :
    ∃ layout catalog, ({} : Settings).layout = .ok layout ∧
      read {} layout "LW_ID\n  _TYPE\n    _ADDRESS\n" = .ok catalog ∧
      (definitionsIn (IdentityHeader.text ⟨catalog, .value, layout⟩)).filter (fun other => other.name = "LWHAL_ID_TYPE_ADDRESS") =
        [⟨"LWHAL_ID_TYPE_ADDRESS", "1"⟩, ⟨"LWHAL_ID_TYPE_ADDRESS", "0xc0010101"⟩] ∧
      ¬ ((definitionsIn (IdentityHeader.text ⟨catalog, .value, layout⟩)).map Constant.name).Nodup := by
  have evaluated : (read {} ⟨8, 8, 14, by decide⟩ "LW_ID\n  _TYPE\n    _ADDRESS\n").toOption.map (fun catalog =>
      idConstants ⟨catalog, .value, ⟨8, 8, 14, by decide⟩⟩) = some [⟨"LWHAL_ID_TYPE_ADDRESS", "0xc0010101"⟩] := by
    decide +kernel
  obtain ⟨catalog, accepted, ids⟩ := Option.map_eq_some_iff.mp evaluated
  rw [toOption_eq_some] at accepted
  refine ⟨⟨8, 8, 14, by decide⟩, catalog, rfl, accepted, ?_⟩
  rw [definitions_text accepted .value, ids]
  decide +kernel

end RegisterCatalog.IdentityHeader
