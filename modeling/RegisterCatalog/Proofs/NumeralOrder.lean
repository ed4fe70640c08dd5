import Mathlib.Algebra.Group.Nat.Defs
import RegisterCatalog.Proofs.NaturalOrder

/-! Numbers inside texts are ordered by value, however many digits they have. The comparison never computes a value:
without leading zeros the longer numeral is the greater one, and equally long numerals are ordered like words. -/

namespace RegisterCatalog.Chars
open Std

/-- The number that decimal digits denote. -/
def decimalValue (digits : List Char) : Nat := Nat.ofDigitChars 10 digits 0

theorem decimalValue_cons (digit : Char) (rest : List Char) :
    decimalValue (digit :: rest) = (digit.toNat - '0'.toNat) * 10 ^ rest.length + decimalValue rest := by
  rw [decimalValue, Nat.ofDigitChars_cons, Nat.ofDigitChars_eq_ofDigitChars_zero, Nat.mul_zero, Nat.zero_add,
    Nat.mul_comm, decimalValue]

theorem decimalValue_lt {digits : List Char} (decimal : ∀ c ∈ digits, c.isDigit) :
    decimalValue digits < 10 ^ digits.length := by
  induction digits with
  | nil => exact Nat.one_pos
  | cons digit rest ih =>
    rw [List.forall_mem_cons, Char.isDigit_iff_toNat] at decimal
    have high : digit.toNat - '0'.toNat + 1 ≤ 10 := by
      have last : '9'.toNat = '0'.toNat + 9 := rfl
      omega
    have low := ih decimal.2
    have weight := Nat.mul_le_mul_right (10 ^ rest.length) high
    rw [Nat.succ_mul] at weight
    rw [decimalValue_cons, List.length_cons, Nat.pow_succ, Nat.mul_comm _ 10]
    omega

theorem decimalValue_significant (numeral : List Char) : decimalValue (significant numeral) = decimalValue numeral := by
  obtain ⟨zeros, split⟩ := zeros_append_significant numeral
  have value := congrArg decimalValue split
  rw [decimalValue, decimalValue, Nat.ofDigitChars_append, Nat.ofDigitChars_replicate_zero, Nat.mul_zero] at value
  exact value.symm

theorem forall_significant {numeral : List Char} {good : Char → Prop} (each : ∀ c ∈ numeral, good c) :
    ∀ c ∈ significant numeral, good c :=
  fun c member => each c ((List.dropWhile_sublist _).subset member)

theorem head_significant_ne {numeral : List Char} {digit : Char} {rest : List Char}
    (first : significant numeral = digit :: rest) : digit ≠ '0' := by
  have stopped := List.head?_dropWhile_not (· == '0') numeral
  rw [← significant, first] at stopped
  simpa using stopped

theorem decimalValue_lt_of_length_lt {left right : List Char} (decimal : ∀ c ∈ left, c.isDigit)
    (also : ∀ c ∈ right, c.isDigit) (shorter : (significant left).length < (significant right).length) :
    decimalValue left < decimalValue right := by
  rw [← decimalValue_significant left, ← decimalValue_significant right]
  cases first : significant right with
  | nil => simp [first] at shorter
  | cons digit rest =>
    have digits := forall_significant also
    rw [first, List.forall_mem_cons, Char.isDigit_iff_toNat] at digits
    have nonzero : digit.toNat ≠ '0'.toNat := Char.toNat_inj.not.mpr (head_significant_ne first)
    have positive : 1 ≤ digit.toNat - '0'.toNat := by omega
    rw [first, List.length_cons, Nat.lt_succ_iff] at shorter
    calc decimalValue (significant left)
      _ < 10 ^ (significant left).length := decimalValue_lt (forall_significant decimal)
      _ ≤ 10 ^ rest.length := Nat.pow_le_pow_right (by decide) shorter
      _ ≤ (digit.toNat - '0'.toNat) * 10 ^ rest.length := Nat.le_mul_of_pos_left _ positive
      _ ≤ decimalValue (digit :: rest) := by
        rw [decimalValue_cons]
        exact Nat.le_add_right _ _

private theorem compare_join {first second low high radix : Nat} (small : low < radix) (bounded : high < radix) :
    compare (first * radix + low) (second * radix + high) = (compare first second).then (compare low high) := by
  rcases Nat.lt_trichotomy first second with less | rfl | greater
  · have weight := Nat.mul_le_mul_right radix (Nat.succ_le_of_lt less)
    rw [Nat.succ_mul] at weight
    have whole : first * radix + low < second * radix + high := by omega
    rw [Nat.compare_eq_lt.mpr less, Nat.compare_eq_lt.mpr whole]
    rfl
  · rw [Nat.compare_eq_eq.mpr rfl, Ordering.eq_then]
    simp only [Nat.compare_eq_ite_lt, Nat.add_lt_add_iff_left]
  · have weight := Nat.mul_le_mul_right radix (Nat.succ_le_of_lt greater)
    rw [Nat.succ_mul] at weight
    have whole : second * radix + high < first * radix + low := by omega
    rw [Nat.compare_eq_gt.mpr greater, Nat.compare_eq_gt.mpr whole]
    rfl

private theorem compare_digit {first second : Char} (one : first.isDigit) (two : second.isDigit) :
    compare first second = compare (first.toNat - '0'.toNat) (second.toNat - '0'.toNat) := by
  rw [Char.isDigit_iff_toNat] at one two
  have less : first.toNat - '0'.toNat < second.toNat - '0'.toNat ↔ first.toNat < second.toNat := by omega
  have greater : second.toNat - '0'.toNat < first.toNat - '0'.toNat ↔ second.toNat < first.toNat := by omega
  simp only [compare_toNat, Nat.compare_eq_ite_lt, less, greater]

theorem compare_digits {left right : List Char} (decimal : ∀ c ∈ left, c.isDigit) (also : ∀ c ∈ right, c.isDigit)
    (same : left.length = right.length) : compare left right = compare (decimalValue left) (decimalValue right) := by
  induction left generalizing right with
  | nil =>
    cases right with
    | nil => rfl
    | cons digit rest => cases same
  | cons digit rest ih =>
    cases right with
    | nil => cases same
    | cons other others =>
      rw [List.forall_mem_cons] at decimal also
      have length : rest.length = others.length := Nat.succ.inj same
      have low := decimalValue_lt decimal.2
      rw [length] at low
      rw [decimalValue_cons, decimalValue_cons, length, compare_join low (decimalValue_lt also.2),
        List.compare_cons_cons, compare_digit decimal.1 also.1, ih decimal.2 also.2 length]

/-- Numerals are ordered by value, and those of one value by length. -/
theorem compareNumerals_eq_compare_values {left right : List Char} (decimal : ∀ c ∈ left, c.isDigit)
    (also : ∀ c ∈ right, c.isDigit) :
    compareNumerals left right =
      (compare (decimalValue left) (decimalValue right)).then (compare left.length right.length) := by
  rw [compareNumerals_eq]
  rcases Nat.lt_trichotomy (significant left).length (significant right).length with shorter | same | longer
  · rw [Nat.compare_eq_lt.mpr shorter, Nat.compare_eq_lt.mpr (decimalValue_lt_of_length_lt decimal also shorter)]
    rfl
  · rw [compare_digits (forall_significant decimal) (forall_significant also) same, Nat.compare_eq_eq.mpr same,
      Ordering.eq_then, decimalValue_significant, decimalValue_significant]
  · rw [Nat.compare_eq_gt.mpr longer, Nat.compare_eq_gt.mpr (decimalValue_lt_of_length_lt also decimal longer)]
    rfl

theorem runs_starts (c : Char) (rest : List Char) : ∃ run later, runs (c :: rest) = (c :: run) :: later := by
  unfold runs
  split
  · split
    · exact ⟨_, _, rfl⟩
    · exact ⟨_, _, rfl⟩
  · exact ⟨_, _, rfl⟩

theorem runs_alike {c d : Char} (rest : List Char) {run : List Char} {later : List (List Char)}
    (same : c.isDigit = d.isDigit) (found : runs (d :: rest) = run :: later) :
    runs (c :: d :: rest) = (c :: run) :: later := by
  obtain ⟨others, more, starts⟩ := runs_starts d rest
  rw [found] at starts
  obtain ⟨rfl, rfl⟩ := List.cons.inj starts
  rw [runs, found]
  simp [same]

theorem runs_differ {c d : Char} (rest : List Char) (different : c.isDigit ≠ d.isDigit) :
    runs (c :: d :: rest) = [c] :: runs (d :: rest) := by
  obtain ⟨others, more, starts⟩ := runs_starts d rest
  rw [runs, starts]
  simp [different]

/-- A text can be cut between a digit and another character. -/
theorem runs_append {left right : List Char}
    (apart : ∀ c ∈ left.getLast?, ∀ d ∈ right.head?, c.isDigit ≠ d.isDigit) :
    runs (left ++ right) = runs left ++ runs right := by
  induction left with
  | nil => rfl
  | cons c rest ih =>
    cases rest with
    | nil =>
      cases right with
      | nil => rfl
      | cons d later =>
        rw [List.singleton_append, runs_differ later (apart c rfl d rfl)]
        rfl
    | cons e more =>
      have ih := ih fun d last => apart d (by rwa [List.getLast?_cons_cons])
      obtain ⟨run, later, starts⟩ := runs_starts e more
      rw [starts, List.cons_append, List.cons_append] at ih
      by_cases same : c.isDigit = e.isDigit
      · rw [List.cons_append, List.cons_append, runs_alike _ same ih, runs_alike _ same starts, List.cons_append]
      · rw [List.cons_append, List.cons_append, runs_differ _ same, runs_differ _ same, ih, starts]
        rfl

/-- Decimal digits and nothing else. -/
def Numeral (digits : List Char) : Prop := digits ≠ [] ∧ ∀ c ∈ digits, c.isDigit

namespace Numeral

variable {numeral : List Char}

theorem isNumeral (digits : Numeral numeral) : isNumeral numeral := by
  obtain ⟨first, others, rfl⟩ := List.exists_cons_of_ne_nil digits.1
  exact digits.2 first List.mem_cons_self

theorem runs_eq (digits : Numeral numeral) : runs numeral = [numeral] := by
  induction numeral with
  | nil => exact absurd rfl digits.1
  | cons c rest ih =>
    cases rest with
    | nil => rfl
    | cons d later =>
      obtain ⟨first, others⟩ := List.forall_mem_cons.mp digits.2
      have same : c.isDigit = d.isDigit := first.trans (others d List.mem_cons_self).symm
      exact runs_alike later same (ih ⟨List.cons_ne_nil _ _, others⟩)

theorem runs_between (digits : Numeral numeral) {common rest : List Char}
    (before : ∀ c ∈ common.getLast?, c.isDigit = false) (after : ∀ c ∈ rest.head?, c.isDigit = false) :
    runs (common ++ numeral ++ rest) = runs common ++ numeral :: runs rest := by
  have cut : runs (common ++ numeral) = runs common ++ runs numeral := by
    apply runs_append
    intro c last d first
    rw [before c last, digits.2 d (List.mem_of_mem_head? first)]
    decide
  rw [runs_append, cut, digits.runs_eq, List.append_assoc, List.singleton_append]
  intro c last d first
  rw [List.getLast?_append, List.getLast?_eq_some_getLast digits.1, Option.some_or, Option.mem_some] at last
  rw [← last, digits.2 _ (List.getLast_mem digits.1), after d first]
  decide

end Numeral

theorem compareLex_append {cmp : α → α → Ordering} [ReflCmp cmp] (common left right : List α) :
    List.compareLex cmp (common ++ left) (common ++ right) = List.compareLex cmp left right := by
  induction common with
  | nil => rfl
  | cons item rest ih =>
    have same : cmp item item = .eq := ReflCmp.compare_self
    rw [List.cons_append, List.cons_append, List.compareLex_cons_cons, same, Ordering.eq_then, ih]

end RegisterCatalog.Chars

namespace RegisterCatalog.Text
open Chars

/-- Where two texts first differ in a number, its value decides, and its length if the value is the same, without any
limit on either. Behind one and the same number, what follows decides. -/
theorem numbers_ordered_by_value {common left right rest later : String}
    (before : ∀ c ∈ common.toList.getLast?, c.isDigit = false) (one : Numeral left.toList) (two : Numeral right.toList)
    (after : ∀ c ∈ rest.toList.head?, c.isDigit = false) (behind : ∀ c ∈ later.toList.head?, c.isDigit = false) :
    naturalCompare (common ++ left ++ rest) (common ++ right ++ later) =
      ((compare (decimalValue left.toList) (decimalValue right.toList)).then (compare left.length right.length)).then
        (naturalCompare rest later) ∧
    (decimalValue left.toList = decimalValue right.toList ∧ left.length = right.length ↔ left = right) := by
  have values := compareNumerals_eq_compare_values one.2 two.2
  constructor
  · simp only [naturalCompare, Chars.naturalCompare, String.toList_append]
    rw [one.runs_between before after, two.runs_between before behind, compareLex_append, List.compareLex_cons_cons,
      compareRuns_numerals one.isNumeral two.isNumeral, values]
    rfl
  · constructor
    · rintro ⟨value, length⟩
      rw [value, String.length_toList, String.length_toList, length] at values
      exact String.toList_inj.mp (Std.LawfulEqCmp.eq_of_compare (values.trans (by simp)))
    · rintro rfl
      exact ⟨rfl, rfl⟩

theorem numbers_ordered_by_value_long :
    naturalCompare ("LW_GPC" ++ "0018446744073709551616" ++ "_B") ("LW_GPC" ++ "18446744073709551617" ++ "_A") = .lt ∧
    naturalCompare ("LW_GPC" ++ "18446744073709551617" ++ "_B") ("LW_GPC" ++ "018446744073709551617" ++ "_A") = .lt ∧
    naturalCompare ("LW_GPC" ++ "18446744073709551617" ++ "_B") ("LW_GPC" ++ "18446744073709551617" ++ "_A") = .gt := by
  have before : ∀ c ∈ "LW_GPC".toList.getLast?, c.isDigit = false := by simp
  have after : ∀ c ∈ "_B".toList.head?, c.isDigit = false := by simp
  have behind : ∀ c ∈ "_A".toList.head?, c.isDigit = false := by simp
  have lower : Numeral "0018446744073709551616".toList := by simp [Numeral]
  have upper : Numeral "18446744073709551617".toList := by simp [Numeral]
  have padded : Numeral "018446744073709551617".toList := by simp [Numeral]
  refine ⟨?_, ?_, ?_⟩
  · exact (numbers_ordered_by_value before lower upper after behind).1.trans (by decide)
  · exact (numbers_ordered_by_value before upper padded after behind).1.trans (by decide)
  · exact (numbers_ordered_by_value before upper upper after behind).1.trans (by decide)

end RegisterCatalog.Text
