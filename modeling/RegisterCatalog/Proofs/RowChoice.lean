import RegisterCatalog.Proofs.Preprocessor

/-! Which alternative of a row is compiled. The printed row is one conditional chain, and whatever the truth of its
guards, the preprocessor goes through it as a search from the front: it leaves the first alternative that has no
guard or whose guard holds. -/

namespace RegisterCatalog

/-- Whether the preprocessor may take an alternative when it comes to it. -/
def Alternative.isOpen (holds : String → Bool) (alternative : Alternative) : Bool :=
  alternative.guard?.all fun guard => holds guard.text

namespace TableRow
open Preprocessor

variable {row : TableRow}

theorem chosen?_eq_find? (holds : String → Bool) (number : Nat) (alternatives : List Alternative) :
    chosen? (fun _ => holds) number alternatives = alternatives.find? (Alternative.isOpen holds) := by
  induction alternatives generalizing number with
  | nil => rfl
  | cons alternative rest ih =>
    rw [chosen?, List.find?_cons, ih, Alternative.isOpen]
    cases alternative.guard?.all fun guard => holds guard.text <;> rfl

/-- Every conditional of a printed row is closed. Its first alternative without a guard or with a guard that holds is
left as a line of its own, and nothing else; behind the last line feed is the empty text. No alternative behind
one without a guard has a part in this. -/
theorem survivors_first_open (texts : ∀ text ∈ row.texts, Text.OneLine text) (holds : String → Bool) :
    survivors (fun _ condition => some (holds condition)) row.text =
      some (((row.alternatives.find? (Alternative.isOpen holds)).map row.content).toList ++ [""]) ∧
    ∀ before free after, row.alternatives = before ++ free :: after → free.guard? = none →
      ∃ chosen, (before ++ [free]).find? (Alternative.isOpen holds) = some chosen ∧
        survivors (fun _ condition => some (holds condition)) row.text = some [row.content chosen, ""] := by
  have left : survivors (fun _ condition => some (holds condition)) row.text =
      some (((row.alternatives.find? (Alternative.isOpen holds)).map row.content).toList ++ [""]) := by
    have decided : Decided (fun _ condition => some (holds condition)) (fun _ => holds) 0 row.lines.length :=
      fun _ _ _ _ => rfl
    have block := row.block_lines decided
    rw [chosenLines, chosen?_eq_find?] at block
    rw [survivors, text, Text.linesOf_ofLines (lines_oneLine texts)]
    exact (block.append (.plain (by decide))).run_whole
  refine ⟨left, ?_⟩
  intro before free after split unguarded
  have opened : free.isOpen holds := by simp [Alternative.isOpen, unguarded]
  obtain ⟨chosen, found⟩ : ∃ chosen, (before ++ [free]).find? (Alternative.isOpen holds) = some chosen := by
    rw [← Option.isSome_iff_exists, List.find?_isSome]
    exact ⟨free, by simp, opened⟩
  have whole : row.alternatives.find? (Alternative.isOpen holds) = some chosen := by
    rw [split, ← List.singleton_append, ← List.append_assoc, List.find?_append, found]
    rfl
  refine ⟨chosen, found, ?_⟩
  rw [left, whole]
  rfl

/-- A row with an alternative that is never compiled, behind one without a guard. -/
def rowWithIdleAlternative : TableRow :=
  ⟨0x40010000, "LWHAL_A", .size 1, .any, none,
    [⟨some (.scalar "LW_A"), "LW_A", "RAW", none⟩, ⟨some (.written "X > 1"), "LW_B", "RAW", none⟩, ⟨none, "LW_C", "FB", some "4"⟩,
      ⟨some (.present "LW_D"), "LW_D", "RAW", none⟩]⟩

theorem survivors_first_open_idle_alternative :
    (∀ text ∈ rowWithIdleAlternative.texts, Text.OneLine text) ∧
    survivors (fun _ condition => some (condition == "X > 1")) rowWithIdleAlternative.text =
      some ["    LWHAL_ROW(0x40010000, LWHAL_INDEX(LWHAL_INDEX_SIZE, 1), LWHAL_DOMAIN_RAW, LWHAL_ACCESS_ANY, LWHAL_CAP_NONE, LW_B, 0),", ""] ∧
    survivors (fun _ condition => some (condition == "defined(LW_D)")) rowWithIdleAlternative.text =
      some ["    LWHAL_ROW(0x40010000, LWHAL_INDEX(LWHAL_INDEX_SIZE, 1), LWHAL_DOMAIN_FB, LWHAL_ACCESS_ANY, LWHAL_CAP_NONE, LW_C, 4),", ""] := by
  have texts : ∀ text ∈ rowWithIdleAlternative.texts, Text.OneLine text := by decide
  refine ⟨texts, ?_, ?_⟩
  · rw [(survivors_first_open texts (· == "X > 1")).1]
    decide +kernel
  · rw [(survivors_first_open texts (· == "defined(LW_D)")).1]
    decide +kernel

end TableRow
end RegisterCatalog
