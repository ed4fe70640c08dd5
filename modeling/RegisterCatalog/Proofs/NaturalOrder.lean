import Mathlib.Data.Char
import RegisterCatalog.Text.NaturalOrder

/-! The natural order is a total order of all texts, although three rules compare the runs. A numeral and other text
differ in their first characters already, and all digits are on the same side of any other character. So the runs are
ordered totally, and a text is what its runs make up together. -/

namespace RegisterCatalog.Chars
open Std

/-- A numeral without its leading zeros. -/
def significant (numeral : List Char) : List Char := numeral.dropWhile (· == '0')

theorem compareNumerals_eq (left right : List Char) :
    compareNumerals left right = (compare (significant left).length (significant right).length).then
      ((compare (significant left) (significant right)).then (compare left.length right.length)) := rfl

theorem zeros_append_significant (numeral : List Char) :
    ∃ zeros, numeral = List.replicate zeros '0' ++ significant numeral := by
  induction numeral with
  | nil => exact ⟨0, rfl⟩
  | cons c rest ih =>
    by_cases zero : c = '0'
    · obtain ⟨zeros, split⟩ := ih
      refine ⟨zeros + 1, ?_⟩
      rw [significant, List.dropWhile_cons_of_pos (by simpa using zero), List.replicate_succ, List.cons_append, zero]
      exact congrArg ('0' :: ·) split
    · refine ⟨0, ?_⟩
      rw [significant, List.dropWhile_cons_of_neg (by simpa using zero)]
      rfl

instance : TransCmp compareNumerals :=
  inferInstanceAs (TransCmp (compareLex (compareOn fun numeral => (significant numeral).length)
    (compareLex (compareOn significant) (compareOn List.length))))

instance : LawfulEqCmp compareNumerals where
  compare_self {numeral} := by simp [compareNumerals_eq]
  eq_of_compare {left right} same := by
    rw [compareNumerals_eq, Ordering.then_eq_eq, Ordering.then_eq_eq] at same
    obtain ⟨_, digits, length⟩ := same
    have digits := LawfulEqCmp.eq_of_compare digits
    have length : left.length = right.length := LawfulEqCmp.eq_of_compare length
    obtain ⟨zeros, one⟩ := zeros_append_significant left
    obtain ⟨others, two⟩ := zeros_append_significant right
    rw [one, two, digits] at length
    simp only [List.length_append, List.length_replicate, Nat.add_right_cancel_iff] at length
    rw [one, two, digits, length]

theorem compare_toNat (left right : Char) : compare left right = compare left.toNat right.toNat := by
  have same : left = right ↔ left.toNat = right.toNat := Char.toNat_inj.symm
  have less : left < right ↔ left.toNat < right.toNat := Iff.rfl
  change compareOfLessAndEq left right = compareOfLessAndEq left.toNat right.toNat
  simp only [compareOfLessAndEq, same, less]

/-- Where a run stands: before all numerals, among them, or after them. -/
def side : List Char → Nat
  | [] => 0
  | c :: _ => if c.toNat < '0'.toNat then 0 else if c.toNat ≤ '9'.toNat then 1 else 2

theorem isNumeral_iff_side (run : List Char) : isNumeral run ↔ side run = 1 := by
  cases run with
  | nil => simp [isNumeral, side]
  | cons c rest =>
    rw [isNumeral, Char.isDigit_iff_toNat, side]
    split
    · omega
    · split <;> omega

theorem compareRuns_numerals {left right : List Char} (one : isNumeral left) (two : isNumeral right) :
    compareRuns left right = compareNumerals left right := by
  simp [compareRuns, one, two]

theorem compareRuns_other {left right : List Char} (other : ¬ isNumeral left ∨ ¬ isNumeral right) :
    compareRuns left right = compare left right := by
  rcases other with other | other <;> simp [compareRuns, other]

theorem compareRuns_of_side_lt {left right : List Char} (less : side left < side right) :
    compareRuns left right = .lt := by
  have mixed : ¬ isNumeral left ∨ ¬ isNumeral right := by
    simp only [isNumeral_iff_side]
    omega
  rw [compareRuns_other mixed]
  cases right with
  | nil => cases less
  | cons d later =>
    cases left with
    | nil => rfl
    | cons c rest =>
      have first : c.toNat < d.toNat := by
        simp only [side] at less
        split_ifs at less <;> omega
      rw [List.compare_cons_cons, compare_toNat, Nat.compare_eq_lt.mpr first]
      rfl

instance : OrientedCmp compareRuns where
  eq_swap {left right} := by
    unfold compareRuns
    rw [Bool.and_comm]
    split
    · exact OrientedCmp.eq_swap
    · exact OrientedCmp.eq_swap

theorem side_le_of_isLE {left right : List Char} (ordered : (compareRuns left right).isLE) :
    side left ≤ side right := by
  by_contra greater
  have less := compareRuns_of_side_lt (Nat.lt_of_not_le greater)
  rw [OrientedCmp.gt_of_lt less] at ordered
  cases ordered

instance : TransCmp compareRuns where
  isLE_trans {first second third} one two := by
    have up := side_le_of_isLE one
    have further := side_le_of_isLE two
    by_cases less : side first < side third
    · rw [compareRuns_of_side_lt less]
      rfl
    · have same : side first = side second ∧ side third = side second := by omega
      by_cases numerals : side second = 1
      · have left := (isNumeral_iff_side first).mpr (by omega)
        have middle := (isNumeral_iff_side second).mpr numerals
        have right := (isNumeral_iff_side third).mpr (by omega)
        rw [compareRuns_numerals left middle] at one
        rw [compareRuns_numerals middle right] at two
        rw [compareRuns_numerals left right]
        exact TransCmp.isLE_trans one two
      · have middle : ¬ isNumeral second := (isNumeral_iff_side second).not.mpr numerals
        have right : ¬ isNumeral third := (isNumeral_iff_side third).not.mpr (by omega)
        rw [compareRuns_other (.inr middle)] at one
        rw [compareRuns_other (.inl middle)] at two
        rw [compareRuns_other (.inr right)]
        exact TransCmp.isLE_trans one two

instance : LawfulEqCmp compareRuns where
  compare_self {run} := by
    unfold compareRuns
    split
    · exact ReflCmp.compare_self
    · exact ReflCmp.compare_self
  eq_of_compare {left right} same := by
    unfold compareRuns at same
    split at same
    · exact LawfulEqCmp.eq_of_compare same
    · exact LawfulEqCmp.eq_of_compare same

theorem flatten_runs (text : List Char) : (runs text).flatten = text := by
  induction text with
  | nil => rfl
  | cons c rest ih =>
    unfold runs
    split
    next d run later found =>
      rw [found] at ih
      split
      · rw [List.flatten_cons, ← ih, List.flatten_cons]
        rfl
      · rw [List.flatten_cons, ih]
        rfl
    next => rw [List.flatten_cons, ih, List.singleton_append]

instance : TransCmp naturalCompare where
  eq_swap {left right} := by
    unfold naturalCompare
    exact OrientedCmp.eq_swap
  isLE_trans {first second third} one two := by
    unfold naturalCompare at one two ⊢
    exact TransCmp.isLE_trans one two

instance : LawfulEqCmp naturalCompare where
  compare_self {text} := by
    unfold naturalCompare
    exact ReflCmp.compare_self
  eq_of_compare {left right} same := by
    have same : runs left = runs right := LawfulEqCmp.eq_of_compare same
    rw [← flatten_runs left, ← flatten_runs right, same]

end RegisterCatalog.Chars

namespace RegisterCatalog.Text
open Std

instance : TransCmp naturalCompare where
  eq_swap {left right} := by
    unfold naturalCompare
    exact OrientedCmp.eq_swap
  isLE_trans {first second third} one two := by
    unfold naturalCompare at one two ⊢
    exact TransCmp.isLE_trans one two

instance : LawfulEqCmp naturalCompare where
  compare_self {text} := by
    unfold naturalCompare
    exact ReflCmp.compare_self
  eq_of_compare {left right} same := by
    unfold naturalCompare at same
    exact String.toList_inj.mp (LawfulEqCmp.eq_of_compare same)

/-- The natural order is a strict total order of all texts. -/
theorem naturalCompare_total_order (left middle right : String) :
    (naturalCompare left right = .eq ↔ left = right) ∧
    naturalCompare right left = (naturalCompare left right).swap ∧
    (naturalCompare left middle = .lt → naturalCompare middle right = .lt → naturalCompare left right = .lt) :=
  ⟨LawfulEqCmp.compare_eq_iff_eq, OrientedCmp.eq_swap, TransCmp.lt_trans⟩

theorem naturalCompare_total_order_padded :
    naturalCompare "LW_A9_B" "LW_A09" = .lt ∧ naturalCompare "LW_A09" "LW_A10" = .lt ∧
      naturalCompare "LW_A9_B" "LW_A10" = .lt := by
  have padded : naturalCompare "LW_A9_B" "LW_A09" = .lt := by decide
  have greater : naturalCompare "LW_A09" "LW_A10" = .lt := by decide
  exact ⟨padded, greater, (naturalCompare_total_order _ _ _).2.2 padded greater⟩

end RegisterCatalog.Text
