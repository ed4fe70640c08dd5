import Mathlib.Data.List.Basic
import RegisterCatalog.Text.Search

/-! Where one text occurs inside another. The search tells whether there is an occurrence at all, and a cut is made at
the first one. -/

namespace RegisterCatalog

namespace Chars

variable {separator text before after : List Char}

theorem contains_iff {part : List Char} : contains part text ↔ part <:+: text := by
  unfold contains
  induction text with
  | nil => cases part <;> simp [splitOnce]
  | cons c rest ih =>
    rw [List.infix_cons_iff, splitOnce]
    split
    next after found =>
      exact ⟨fun _ => .inl ⟨after, List.isPrefixOf?_eq_some_iff_append_eq.mp found⟩, fun _ => rfl⟩
    next other =>
      have elsewhere : ¬ part <+: c :: rest := by
        rw [← List.isPrefixOf_iff_prefix, ← List.isSome_isPrefixOf?_eq_isPrefixOf, other]
        exact Bool.false_ne_true
      rw [Option.isSome_map, ih, or_iff_right elsewhere]

/-- The text is cut where the separator first occurs. -/
def CutAtFirst (separator text before after : List Char) : Prop :=
  text = before ++ separator ++ after ∧
    ∀ earlier later, text = earlier ++ separator ++ later → before.length ≤ earlier.length

theorem cutAtFirst_of_splitOnce (found : splitOnce separator text = some (before, after)) :
    CutAtFirst separator text before after := by
  induction text generalizing before with
  | nil =>
    cases separator with
    | nil =>
      cases found
      exact ⟨rfl, fun _ _ _ => Nat.zero_le _⟩
    | cons c others => cases found
  | cons c rest ih =>
    unfold splitOnce at found
    split at found
    next behind starts =>
      cases found
      exact ⟨(List.isPrefixOf?_eq_some_iff_append_eq.mp starts).symm, fun _ _ _ => Nat.zero_le _⟩
    next elsewhere =>
      obtain ⟨⟨left, right⟩, cut, same⟩ := Option.map_eq_some_iff.mp found
      cases same
      obtain ⟨whole, first⟩ := ih cut
      refine ⟨congrArg (c :: ·) whole, ?_⟩
      intro earlier later other
      cases earlier with
      | nil =>
        rw [List.nil_append] at other
        rw [List.isPrefixOf?_eq_some_iff_append_eq.mpr other.symm] at elsewhere
        cases elsewhere
      | cons d others => exact Nat.succ_le_succ (first others later (List.cons.inj other).2)

theorem splitOnce_eq_some :
    splitOnce separator text = some (before, after) ↔ CutAtFirst separator text before after := by
  constructor
  · exact cutAtFirst_of_splitOnce
  · rintro ⟨whole, first⟩
    have occurs : contains separator text := contains_iff.mpr ⟨before, after, whole.symm⟩
    obtain ⟨⟨left, right⟩, found⟩ := Option.isSome_iff_exists.mp occurs
    obtain ⟨again, least⟩ := cutAtFirst_of_splitOnce found
    have place : left.length = before.length := Nat.le_antisymm (least _ _ whole) (first _ _ again)
    rw [whole, List.append_assoc, List.append_assoc] at again
    obtain ⟨rfl, rest⟩ := List.append_inj again place.symm
    rw [found, List.append_cancel_left rest]

/-- An occurrence across the end of a text would need the separator to begin once more inside itself. -/
theorem cutAtFirst_append {c : Char} {others : List Char} (apart : c ∉ others) (absent : ¬ c :: others <:+: before)
    (after : List Char) : CutAtFirst (c :: others) (before ++ c :: others ++ after) before after := by
  refine ⟨rfl, ?_⟩
  intro earlier later same
  rw [List.append_assoc, List.append_assoc] at same
  rcases List.append_eq_append_iff.mp same with ⟨middle, rfl, _⟩ | ⟨middle, rfl, overlap⟩
  · simp
  · cases middle with
    | nil => simp
    | cons d inside =>
      rcases List.append_eq_append_iff.mp overlap with ⟨rest, within, _⟩ | ⟨rest, within, again⟩
      · exact absurd ⟨earlier, rest, by rw [within, List.append_assoc]⟩ absent
      · cases rest with
        | nil => exact absurd ⟨earlier, [], by rw [within, List.append_nil, List.append_nil]⟩ absent
        | cons e behind =>
          obtain ⟨rfl, _⟩ := List.cons.inj again
          obtain ⟨_, inner⟩ := List.cons.inj within
          exact absurd (inner ▸ List.mem_append_right _ List.mem_cons_self) apart

end Chars

namespace Text

variable {part separator text before after : String}

def Occurs (part text : String) : Prop := ∃ before after, text = before ++ part ++ after

theorem occurs_iff : Occurs part text ↔ part.toList <:+: text.toList := by
  constructor
  · rintro ⟨before, after, rfl⟩
    exact ⟨before.toList, after.toList, by simp⟩
  · rintro ⟨before, after, whole⟩
    exact ⟨String.ofList before, String.ofList after, String.toList_inj.mp (by simp [← whole])⟩

theorem contains_iff_occurs : contains part text ↔ Occurs part text :=
  Chars.contains_iff.trans occurs_iff.symm

instance (part text : String) : Decidable (Occurs part text) :=
  decidable_of_iff (contains part text) contains_iff_occurs

/-- The text is cut where the separator first occurs. -/
def CutAtFirst (separator text before after : String) : Prop :=
  text = before ++ separator ++ after ∧
    ∀ earlier later, text = earlier ++ separator ++ later → before.length ≤ earlier.length

theorem cutAtFirst_iff :
    CutAtFirst separator text before after ↔
      Chars.CutAtFirst separator.toList text.toList before.toList after.toList := by
  constructor
  · rintro ⟨rfl, first⟩
    refine ⟨by simp, ?_⟩
    intro earlier later same
    have least := first (String.ofList earlier) (String.ofList later) (String.toList_inj.mp (by simp [← same]))
    rwa [← String.length_toList, ← String.length_toList, String.toList_ofList] at least
  · rintro ⟨whole, first⟩
    refine ⟨String.toList_inj.mp (by simp [whole]), ?_⟩
    intro earlier later same
    rw [← String.length_toList, ← String.length_toList]
    exact first earlier.toList later.toList (by simp [same])

theorem splitOnce_eq_some :
    splitOnce separator text = some (before, after) ↔ CutAtFirst separator text before after := by
  rw [cutAtFirst_iff, ← Chars.splitOnce_eq_some, splitOnce, Option.map_eq_some_iff]
  constructor
  · rintro ⟨⟨left, right⟩, found, same⟩
    cases same
    simpa using found
  · intro found
    exact ⟨_, found, by simp⟩

theorem dropEnd?_eq_some {ending text stem : String} (found : dropEnd? ending text = some stem) :
    text = stem ++ ending := by
  obtain ⟨chars, rest, rfl⟩ := Option.map_eq_some_iff.mp found
  have split := List.isSuffixOf?_eq_some_iff_append_eq.mp rest
  apply String.toList_inj.mp
  rw [String.toList_append, String.toList_ofList, split]

theorem dropEnd?_append (stem ending : String) : dropEnd? ending (stem ++ ending) = some stem := by
  have cut : ending.toList.isSuffixOf? (stem ++ ending).toList = some stem.toList := by
    rw [List.isSuffixOf?_eq_some_iff_append_eq, String.toList_append]
  rw [dropEnd?, cut, Option.map_some, String.ofList_toList]

end Text
end RegisterCatalog
