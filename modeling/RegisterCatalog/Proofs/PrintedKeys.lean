import Std.Data.String.ToNat
import RegisterCatalog.Artifact.DeviceTable
import RegisterCatalog.Proofs.Hexadecimal

/-! What a row is looked up by, as it is printed. Different slots and accesses are spelled differently,
so nothing is lost when a table goes through the preprocessor. -/

namespace RegisterCatalog.Chars

/-- A text that can stand between commas. -/
def Plain (text : List Char) : Prop := ',' ∉ text ∧ text ≠ []

/-- A comma with a space joins like a comma, if the space is counted to the text after it. -/
private theorem intercalate_comma (first : List Char) (rest : List (List Char)) :
    [',', ' '].intercalate (first :: rest) = [','].intercalate (first :: rest.map (' ' :: ·)) := by
  induction rest generalizing first with
  | nil => rfl
  | cons second rest ih =>
    rw [List.map_cons, List.intercalate_cons_cons, List.intercalate_cons_cons, ih second,
      List.intercalate_cons_cons_left, List.append_assoc, List.append_assoc]
    rfl

private theorem splitOn_intercalate {first : List Char} {rest : List (List Char)}
    (plain : ∀ text ∈ first :: rest, Plain text) :
    ([',', ' '].intercalate (first :: rest)).splitOn ',' = first :: rest.map (' ' :: ·) := by
  rw [intercalate_comma]
  apply List.splitOn_intercalate ',' _ (List.cons_ne_nil _ _)
  intro text member
  rcases List.mem_cons.mp member with rfl | member
  · exact (plain text List.mem_cons_self).1
  · obtain ⟨inner, inside, rfl⟩ := List.mem_map.mp member
    simpa using (plain inner (List.mem_cons_of_mem _ inside)).1

private theorem intercalate_ne_nil {first : List Char} {rest : List (List Char)}
    (plain : ∀ text ∈ first :: rest, Plain text) : [',', ' '].intercalate (first :: rest) ≠ [] := by
  have nonempty := (plain first List.mem_cons_self).2
  cases rest <;> simp [List.intercalate_cons_cons, nonempty]

theorem intercalate_injective {first second : List (List Char)} (plain : ∀ text ∈ first, Plain text)
    (clean : ∀ text ∈ second, Plain text)
    (same : [',', ' '].intercalate first = [',', ' '].intercalate second) : first = second := by
  cases first with
  | nil =>
    cases second with
    | nil => rfl
    | cons head rest => exact absurd same.symm (intercalate_ne_nil clean)
  | cons head rest =>
    cases second with
    | nil => exact absurd same (intercalate_ne_nil plain)
    | cons other others =>
      have pieces := splitOn_intercalate plain
      rw [same, splitOn_intercalate clean, List.cons.injEq] at pieces
      have tails : others = rest := (List.map_inj_right fun _ _ equal => (List.cons.inj equal).2).mp pieces.2
      rw [pieces.1, tails]

end RegisterCatalog.Chars

namespace RegisterCatalog
open Chars

theorem plain_toString (number : Nat) : Plain (toString number).toList := by
  rw [Nat.toString_eq_ofList_toDigits, String.toList_ofList]
  refine ⟨?_, Nat.toDigits_ne_nil⟩
  intro member
  exact absurd (Nat.isDigit_of_mem_toDigits (by decide) (by decide) member) (by decide)

theorem Slot.arguments_plain (slot : Slot) : ∀ argument ∈ slot.arguments, Plain argument.toList := by
  cases slot with
  | element tuple => exact List.forall_mem_map.mpr fun index _ => plain_toString index
  | size ordinal =>
    exact List.forall_mem_cons.mpr ⟨⟨by decide, by decide⟩, List.forall_mem_singleton.mpr (plain_toString ordinal)⟩
  | privilege tuple =>
    exact List.forall_mem_cons.mpr ⟨⟨by decide, by decide⟩, List.forall_mem_map.mpr fun index _ => plain_toString index⟩

theorem map_toString_injective {first second : List Nat}
    (same : first.map toString = second.map toString) : first = second :=
  (List.map_inj_right fun _ _ equal => Nat.repr_injective equal).mp same

private theorem map_toString_ne {tuple : List Nat} {word : String} {rest : List String}
    (letter : word.toList.head?.any (!·.isDigit)) : tuple.map toString ≠ word :: rest := by
  intro same
  cases tuple with
  | nil => cases same
  | cons number others =>
    obtain ⟨rfl, _⟩ := List.cons.inj same
    rw [Nat.toString_eq_ofList_toDigits, String.toList_ofList] at letter
    cases digits : Nat.toDigits 10 number with
    | nil => exact Nat.toDigits_ne_nil digits
    | cons digit later =>
      have isDigit : digit.isDigit :=
        Nat.isDigit_of_mem_toDigits (by decide) (by decide) (digits ▸ List.mem_cons_self)
      simp [digits, isDigit] at letter

theorem Slot.arguments_injective {first second : Slot} (same : first.arguments = second.arguments) :
    first = second := by
  cases first with
  | element tuple =>
    cases second with
    | element other => rw [map_toString_injective same]
    | size ordinal => exact absurd same (map_toString_ne (by decide))
    | privilege other => exact absurd same (map_toString_ne (by decide))
  | size ordinal =>
    cases second with
    | element other => exact absurd same.symm (map_toString_ne (by decide))
    | size other => rw [Nat.repr_injective (List.cons.inj (List.cons.inj same).2).1]
    | privilege other => exact absurd (List.cons.inj same).1 (by decide)
  | privilege tuple =>
    cases second with
    | element other => exact absurd same.symm (map_toString_ne (by decide))
    | size ordinal => exact absurd (List.cons.inj same).1 (by decide)
    | privilege other => rw [map_toString_injective (List.cons.inj same).2]

theorem Slot.index_injective {first second : Slot} (same : first.index = second.index) : first = second := by
  have texts := congrArg String.toList same
  simp only [index, String.toList_append, List.append_cancel_left_eq, List.append_cancel_right_eq,
    String.toList_intercalate] at texts
  have lists := intercalate_injective (by simpa using first.arguments_plain) (by simpa using second.arguments_plain) texts
  exact arguments_injective ((List.map_inj_right fun _ _ equal => String.toList_inj.mp equal).mp lists)

theorem Access.constant_injective {first second : Access} (same : first.constant = second.constant) :
    first = second := by
  cases first <;> cases second <;> first | rfl | exact absurd same (by decide)

end RegisterCatalog
