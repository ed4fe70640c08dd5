import RegisterCatalog.Proofs.EntryIdentity

/-! The order of directives. Two directives about different aspects of an entry can change places: each is accepted
or refused as before, and together they leave the same entry. So of the order of all directives only the order
within each aspect matters. -/

namespace RegisterCatalog.Entry
open Outcome

variable {settings : Settings} {entry : Entry} {first second : Directive}

theorem revise_taken {directive : Directive} {aspect : Directive.Aspect} (apart : directive.aspect ≠ aspect) :
    (entry.revise settings directive).taken aspect = entry.taken aspect := by
  cases directive with
  | synonym name =>
    simp only [revise, addSynonym_eq]
    cases aspect <;> rfl
  | _ => cases aspect <;> first | rfl | exact absurd rfl apart

/-- The names that an address has when its domain is given are moved there, and a synonym that comes later is
put there. -/
theorem revise_domain_synonym (address : entry.level = .address) (domain synonym : String) :
    (entry.revise settings (.domain domain)).revise settings (.synonym synonym) =
      (entry.revise settings (.synonym synonym)).revise settings (.domain domain) := by
  simp [revise, addSynonym, address, Entry.domain]

/-- Accepted directives about different aspects leave the same entry in either order. Of the two that change the
names, the domain is for addresses only. -/
theorem revise_comm (apart : first.aspect ≠ second.aspect) (one : first.allowedOn entry.level)
    (two : second.allowedOn entry.level) :
    (entry.revise settings first).revise settings second = (entry.revise settings second).revise settings first := by
  cases first with
  | domain name =>
    have address : entry.level = .address := by simpa [Directive.allowedOn] using one
    cases second with
    | domain other => exact absurd rfl apart
    | synonym other => exact revise_domain_synonym address name other
    | _ => rfl
  | synonym name =>
    cases second with
    | domain other =>
      have address : entry.level = .address := by simpa [Directive.allowedOn] using two
      exact (revise_domain_synonym address other name).symm
    | synonym other => exact absurd rfl apart
    | _ =>
      simp only [revise, addSynonym_eq]
      rfl
  | _ =>
    cases second with
    | synonym other =>
      simp only [revise, addSynonym_eq]
      rfl
    | _ => first | rfl | exact absurd rfl apart

theorem accepts_revise (apart : first.aspect ≠ second.aspect) :
    (entry.revise settings first).Accepts settings second ↔ entry.Accepts settings second := by
  have kept := revise_keeps settings entry first
  have untouched : (entry.revise settings first).taken second.aspect = entry.taken second.aspect := revise_taken apart
  constructor
  · rintro ⟨allowed, free, fits⟩
    exact ⟨kept.level ▸ allowed, untouched ▸ free, kept.name ▸ fits⟩
  · rintro ⟨allowed, free, fits⟩
    exact ⟨kept.level ▸ allowed, untouched.trans free, by rwa [kept.name]⟩

theorem apply_twice {final : Entry} (apart : first.aspect ≠ second.aspect) :
    apply settings entry first >>= (apply settings · second) = .ok final ↔
      entry.Accepts settings first ∧ entry.Accepts settings second ∧
        (entry.revise settings first).revise settings second = final := by
  simp only [bind_eq_ok, apply_eq_ok, and_assoc, exists_and_left, exists_eq_left', accepts_revise apart]

theorem apply_commuting (settings : Settings) (apart : first.aspect ≠ second.aspect) :
    Commuting (apply settings) first second := by
  intro entry final
  rw [apply_twice apart, apply_twice apart.symm, and_left_comm]
  refine and_congr_right fun two => and_congr_right fun one => ?_
  rw [revise_comm apart one.allowed two.allowed]

/-- Only the order of directives about the same aspect matters. Two lists of directives that agree on every aspect
are both accepted or both refused by an entry, and change it alike; so lines with these directives declare the
same entry, or none. -/
theorem order_matters_within_aspects {one two : List Directive}
    (same : ∀ aspect, one.filter (·.aspect = aspect) = two.filter (·.aspect = aspect)) (settings : Settings) :
    (∀ before after, one.foldlM (apply settings) before = .ok after ↔ two.foldlM (apply settings) before = .ok after) ∧
    ∀ layout line level above? previous? word words others,
      Directive.readAll words = .ok one → Directive.readAll others = .ok two →
      ∀ entry, ofWords settings layout line level above? previous? word words = .ok entry ↔
        ofWords settings layout line level above? previous? word others = .ok entry := by
  have alike : ∀ before after,
      one.foldlM (apply settings) before = .ok after ↔ two.foldlM (apply settings) before = .ok after :=
    fun _ _ => foldlM_reorder (fun _ _ apart => apply_commuting settings apart) same
  refine ⟨alike, ?_⟩
  intro layout line level above? previous? word words others given also entry
  simp only [ofWords, bind_eq_ok, given, also, Except.ok.injEq, exists_eq_left', alike]

/-- The directives of a line, as they come. -/
def mixedWords : List String := ["4", "-alias", "LW_B", "-domain", "FB", "-replace_array", "A=A%d", "2", "-alias", "LW_C"]

def sortedWords : List String := ["-domain", "FB", "-alias", "LW_B", "-alias", "LW_C", "4", "-replace_array", "A=A%d", "2"]

/-- The synonyms move to the domain that comes after one of them, just as if it had come first. -/
theorem order_matters_within_aspects_of_address :
    ∃ one two entry, Directive.readAll mixedWords = .ok one ∧ Directive.readAll sortedWords = .ok two ∧ one ≠ two ∧
      (∀ aspect, one.filter (·.aspect = aspect) = two.filter (·.aspect = aspect)) ∧
      ofWords {} ⟨8, 8, 14, by decide⟩ 1 .address none none "LW_A" mixedWords = .ok entry ∧
      ofWords {} ⟨8, 8, 14, by decide⟩ 1 .address none none "LW_A" sortedWords = .ok entry ∧
      entry.hardwareNames = [⟨"LW_A", "FB"⟩, ⟨"LW_B", "FB"⟩, ⟨"LW_C", "FB"⟩] ∧ entry.limits = [4, 2] := by
  have first : Directive.readAll mixedWords =
      .ok [.arrayLimit 4, .synonym "LW_B", .domain "FB", .replaceArray "A" "A%d" 2, .synonym "LW_C"] := by
    decide +kernel
  have second : Directive.readAll sortedWords =
      .ok [.domain "FB", .synonym "LW_B", .synonym "LW_C", .arrayLimit 4, .replaceArray "A" "A%d" 2] := by
    decide +kernel
  have seen : ((ofWords {} ⟨8, 8, 14, by decide⟩ 1 .address none none "LW_A" mixedWords).toOption.map fun entry =>
        (entry.hardwareNames, entry.limits)) =
      some ([⟨"LW_A", "FB"⟩, ⟨"LW_B", "FB"⟩, ⟨"LW_C", "FB"⟩], [4, 2]) := by
    decide +kernel
  obtain ⟨entry, made, seen⟩ := Option.map_eq_some_iff.mp seen
  rw [toOption_eq_some] at made
  simp only [Prod.mk.injEq] at seen
  have same : ∀ aspect,
      [.arrayLimit 4, .synonym "LW_B", .domain "FB", .replaceArray "A" "A%d" 2, .synonym "LW_C"].filter (·.aspect = aspect) =
        [.domain "FB", .synonym "LW_B", .synonym "LW_C", .arrayLimit 4, .replaceArray "A" "A%d" 2].filter
          (Directive.aspect · = aspect) := by
    intro aspect
    cases aspect <;> rfl
  have sorted := (order_matters_within_aspects same {}).2 ⟨8, 8, 14, by decide⟩ 1 .address none none "LW_A" _ _ first second
  exact ⟨_, _, entry, first, second, by simp, same, made, (sorted entry).mp made, seen⟩

end RegisterCatalog.Entry
