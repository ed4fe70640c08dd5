import RegisterCatalog.Proofs.Hexadecimal
import RegisterCatalog.Proofs.PrimaryNames
import RegisterCatalog.Proofs.PrintedLines

/-! No two symbols are equal, and none has blanks in it. Names are words of a line, and a symbol is put together from a
prefix, names and underscores. So whatever is printed with a symbol in it can be taken apart into words and lines again. -/

namespace RegisterCatalog

namespace Chars

theorem pieces_eq_splitOnP (isSeparator : Char → Bool) (text : List Char) :
    pieces isSeparator text = text.splitOnP isSeparator := by
  induction text with
  | nil => rfl
  | cons c rest ih =>
    rw [pieces, List.splitOnP_cons_eq_if_modifyHead, ih]
    split
    · rfl
    · cases found : rest.splitOnP isSeparator with
      | nil => exact absurd (ih.trans found) (pieces_ne_nil isSeparator rest)
      | cons piece later => rfl

theorem words_append {blank : Char} (left right : List Char) (separates : isBlank blank) :
    words (left ++ blank :: right) = words left ++ words right := by
  simp only [words, pieces_eq_splitOnP]
  rw [List.splitOnP_append_cons left right separates, List.filter_append]

theorem words_single {text : List Char} (some : text ≠ []) (unbroken : ∀ c ∈ text, isBlank c = false) :
    words text = [text] := by
  rw [words, pieces_eq_splitOnP, List.splitOnP_eq_singleton unbroken]
  simp [some]

theorem not_isBlank_of_isDigit {c : Char} (digit : c.isDigit) : isBlank c = false := by
  simp only [Char.isDigit, Bool.and_eq_true, decide_eq_true_eq, ge_iff_le, UInt32.le_iff_toNat_le] at digit
  have bounds : 48 ≤ c.toNat ∧ c.toNat ≤ 57 := digit
  simp only [isBlank, Bool.or_eq_false_iff, Bool.and_eq_false_iff, decide_eq_false_iff_not, beq_eq_false_iff_ne]
  omega

theorem unbroken_of_mem_pieces {isSeparator : Char → Bool} {text piece : List Char}
    (member : piece ∈ pieces isSeparator text) : ∀ c ∈ piece, isSeparator c = false := by
  induction text generalizing piece with
  | nil =>
    cases List.mem_singleton.mp member
    simp
  | cons first rest ih =>
    unfold pieces at member
    split at member
    · rcases List.mem_cons.mp member with rfl | member
      · simp
      · exact ih member
    next inside =>
      split at member
      next empty => exact absurd empty (pieces_ne_nil isSeparator rest)
      next piece later found =>
        rcases List.mem_cons.mp member with rfl | member
        · rw [List.forall_mem_cons]
          exact ⟨Bool.eq_false_iff.mpr inside, ih (found ▸ List.mem_cons_self)⟩
        · exact ih (found ▸ List.mem_cons_of_mem _ member)

end Chars

namespace Text

/-- A text without blanks. -/
def Unbroken (text : String) : Prop := ∀ c ∈ text.toList, Chars.isBlank c = false

instance (text : String) : Decidable (Unbroken text) :=
  decidable_of_iff (text.toList.all fun c => !Chars.isBlank c) (by simp [Unbroken])

@[simp] theorem unbroken_append (first second : String) : Unbroken (first ++ second) ↔ Unbroken first ∧ Unbroken second := by
  simp only [Unbroken, String.toList_append, List.forall_mem_append]

theorem Unbroken.oneLine {text : String} (unbroken : Unbroken text) : OneLine text := by
  intro feed
  exact absurd (unbroken '\n' feed) (by decide)

theorem unbroken_of_mem_words {text word : String} (member : word ∈ words text) : Unbroken word := by
  obtain ⟨chars, inside, rfl⟩ := List.mem_map.mp member
  unfold Unbroken
  rw [String.toList_ofList]
  exact Chars.unbroken_of_mem_pieces (List.mem_filter.mp inside).1

theorem unbroken_hexWord (word : UInt32) : Unbroken (hexWord word) := by
  unfold Unbroken
  rw [toList_hexWord, List.forall_mem_cons, List.forall_mem_cons]
  exact ⟨by decide, by decide, forall_wordDigits (by decide) word⟩

theorem unbroken_toString (number : Nat) : Unbroken (toString number) := by
  intro c member
  rw [Nat.toString_eq_ofList_toDigits, String.toList_ofList] at member
  exact Chars.not_isBlank_of_isDigit (Nat.isDigit_of_mem_toDigits (by decide) (by decide) member)

end Text

namespace Entry

theorem unbroken_nameOf {level : Level} {word name : String} (unbroken : Text.Unbroken word) (named : nameOf level word = .ok name) :
    Text.Unbroken name := by
  have shorter : Text.Unbroken (dropUnderscore word) := by
    unfold dropUnderscore
    cases cut : Text.dropStart? "_" word with
    | none => exact unbroken
    | some rest =>
      rw [Text.dropStart?_eq_some.mp cut, Text.unbroken_append] at unbroken
      exact unbroken.2
  have either : Text.Unbroken (if level = .address then word else dropUnderscore word) := by
    split
    · exact unbroken
    · exact shorter
  unfold nameOf at named
  by_cases empty : (if level = .address then word else dropUnderscore word).isEmpty
  · simp [empty] at named
  · simp only [empty, Bool.false_eq_true, if_false, Except.ok.injEq] at named
    exact named ▸ either

end Entry

namespace Catalog

variable {settings : Settings} {layout : Layout} {text : String} {catalog : Catalog}

theorem unbroken_name (accepted : read settings layout text = .ok catalog) {place : Nat} {entry : Entry}
    (stored : catalog.entries[place]? = some entry) : Text.Unbroken entry.name := by
  obtain ⟨line, here, level, above?, previous?, made, _⟩ := declares_at accepted stored
  obtain ⟨declared, first, kept⟩ := Entry.ofWords_eq_ok made
  have word : Text.Unbroken line.word := by
    obtain ⟨source, _, found⟩ := List.mem_filterMap.mp (List.mem_of_getElem? here)
    unfold CodeLine.ofSource? at found
    dsimp only at found
    split at found
    · cases found
    next word rest words =>
      cases found
      exact Text.unbroken_of_mem_words (words ▸ List.mem_cons_self)
  rw [kept.name]
  exact Entry.unbroken_nameOf word (Entry.declare_name first).1

theorem symbols_distinct (accepted : read settings layout text = .ok catalog) :
    (catalog.toList.map Entry.symbol).Nodup := by
  obtain ⟨_, _, sound⟩ := read_eq_ok accepted
  exact (symbols_nodup sound).1

/-- What a symbol says after the prefix that all symbols have. -/
theorem symbol_after_prefix (accepted : read settings layout text = .ok catalog) {entry : Entry}
    (member : entry ∈ catalog.toList) :
    ∃ short, entry.symbol = settings.symbolPrefix ++ short ∧ Text.Unbroken short := by
  obtain ⟨place, stored⟩ := Array.mem_iff_getElem?.mp (Array.mem_toList_iff.mp member)
  apply entry_induction accepted _ _ stored
  · intro place line previous? entry stored top made
    obtain ⟨declared, first, kept⟩ := Entry.ofWords_eq_ok made
    obtain ⟨rest, name, symbol, _, _⟩ := Entry.declare_address first
    have unbroken := unbroken_name accepted stored
    rw [kept.name, name, Text.unbroken_append] at unbroken
    exact ⟨rest, kept.symbol.trans symbol, unbroken.2⟩
  · intro place line level previous? above entry _ stored below made upper ih
    obtain ⟨short, symbol, unbroken⟩ := ih
    obtain ⟨declared, first, kept⟩ := Entry.ofWords_eq_ok made
    obtain ⟨extended, _, _⟩ := Entry.declare_lower first
    refine ⟨short ++ "_" ++ entry.name, ?_, ?_⟩
    · rw [kept.symbol, extended, symbol, kept.name]
      simp only [String.append_assoc]
    · rw [Text.unbroken_append, Text.unbroken_append]
      exact ⟨⟨unbroken, by decide⟩, unbroken_name accepted stored⟩

end Catalog
end RegisterCatalog
