import Mathlib.Algebra.Group.Nat.Defs
import RegisterCatalog.Text.Decimal
import RegisterCatalog.Text.Hexadecimal

/-! Hexadecimal digits read back. Leading zeros and underscores do not count, so both spellings of a number
denote it, and a word is told by its spelling. Words are spelled in equally many digits, so their spellings are
ordered as they are. -/

namespace RegisterCatalog.Chars

def hexDigitValue (digit : Char) : Nat :=
  if digit.isDigit then digit.toNat - '0'.toNat else digit.toNat - 'a'.toNat + 10

/-- The number that lower case hexadecimal digits denote. -/
def hexValue (digits : List Char) : Nat :=
  digits.foldl (fun number digit => number * 16 + hexDigitValue digit) 0

def isHexDigit (c : Char) : Bool := c.isDigit || ('a' ≤ c && c ≤ 'f')

/-- The number that a literal denotes. It is hexadecimal after `0x` and decimal otherwise, and underscores may stand
between its digits. -/
def literal? (text : List Char) : Option Nat :=
  match text.filter (· != '_') with
  | '0' :: 'x' :: digits =>
    if !digits.isEmpty && digits.all isHexDigit then some (hexValue digits) else none
  | digits => decimal? digits

theorem hexDigitValue_digitChar : ∀ digit < 16, hexDigitValue (Nat.digitChar digit) = digit := by
  decide

theorem hexValue_append_singleton (digits : List Char) (digit : Char) :
    hexValue (digits ++ [digit]) = hexValue digits * 16 + hexDigitValue digit := by
  simp [hexValue]

theorem hexValue_hexDigits (number : Nat) : hexValue (hexDigits number) = number := by
  unfold hexDigits
  induction number using Nat.base_induction 16 (by decide) with
  | single digit small =>
    rw [Nat.toDigits_of_lt_base small]
    simpa [hexValue] using hexDigitValue_digitChar digit small
  | digit high digit small positive ih =>
    rw [← Nat.toDigits_append_toDigits (by decide) positive small, Nat.toDigits_of_lt_base small,
      hexValue_append_singleton, ih, hexDigitValue_digitChar digit small, Nat.mul_comm]

theorem forall_hexDigits {good : Char → Prop} (each : ∀ digit < 16, good (Nat.digitChar digit)) (number : Nat) :
    ∀ c ∈ hexDigits number, good c := by
  unfold hexDigits
  induction number using Nat.base_induction 16 (by decide) with
  | single digit small =>
    rw [Nat.toDigits_of_lt_base small, List.forall_mem_singleton]
    exact each digit small
  | digit high digit small positive ih =>
    rw [← Nat.toDigits_append_toDigits (by decide) positive small, Nat.toDigits_of_lt_base small, List.forall_mem_append,
      List.forall_mem_singleton]
    exact ⟨ih, each digit small⟩

theorem isHexDigit_of_mem_hexDigits (number : Nat) : ∀ c ∈ hexDigits number, isHexDigit c :=
  forall_hexDigits (by decide) number

theorem filter_hexDigits (number : Nat) : (hexDigits number).filter (· != '_') = hexDigits number :=
  List.filter_eq_self.mpr (forall_hexDigits (by decide) number)

theorem hexDigits_ne_nil (number : Nat) : hexDigits number ≠ [] := Nat.toDigits_ne_nil

theorem filter_groupByFour (digits : List Char) :
    (groupByFour digits).filter (· != '_') = digits.filter (· != '_') := by
  induction digits with
  | nil => rfl
  | cons digit rest ih =>
    unfold groupByFour
    split <;> simp [List.filter_cons, ih]

theorem hexValue_cons (digit : Char) (rest : List Char) :
    hexValue (digit :: rest) = hexDigitValue digit * 16 ^ rest.length + hexValue rest := by
  have start : ∀ (number : Nat) (digits : List Char),
      digits.foldl (fun number digit => number * 16 + hexDigitValue digit) number =
        number * 16 ^ digits.length + hexValue digits := by
    intro number digits
    induction digits generalizing number with
    | nil => simp [hexValue]
    | cons first others ih =>
      rw [List.foldl_cons, hexValue, List.foldl_cons, ih, ih, List.length_cons, Nat.pow_succ, Nat.add_mul, Nat.zero_mul,
        Nat.zero_add, Nat.mul_assoc, Nat.mul_comm 16, Nat.add_assoc]
  rw [hexValue, List.foldl_cons, start, Nat.zero_mul, Nat.zero_add]

def Written (c : Char) : Prop := ∃ digit < 16, Nat.digitChar digit = c

theorem Written.value_lt {c : Char} (written : Written c) : hexDigitValue c < 16 := by
  obtain ⟨digit, small, rfl⟩ := written
  rw [hexDigitValue_digitChar digit small]
  exact small

theorem Written.lt_of_value_lt {first second : Char} (one : Written first) (two : Written second)
    (less : hexDigitValue first < hexDigitValue second) : first < second := by
  have ordered : ∀ low < 16, ∀ high < 16, low < high → Nat.digitChar low < Nat.digitChar high := by decide
  obtain ⟨low, small, rfl⟩ := one
  obtain ⟨high, bounded, rfl⟩ := two
  rw [hexDigitValue_digitChar low small, hexDigitValue_digitChar high bounded] at less
  exact ordered low small high bounded less

theorem Written.eq_of_value_eq {first second : Char} (one : Written first) (two : Written second)
    (same : hexDigitValue first = hexDigitValue second) : first = second := by
  obtain ⟨low, small, rfl⟩ := one
  obtain ⟨high, bounded, rfl⟩ := two
  rw [hexDigitValue_digitChar low small, hexDigitValue_digitChar high bounded] at same
  rw [same]

theorem hexValue_lt {digits : List Char} (written : ∀ c ∈ digits, Written c) : hexValue digits < 16 ^ digits.length := by
  induction digits with
  | nil => exact Nat.one_pos
  | cons digit rest ih =>
    rw [List.forall_mem_cons] at written
    rw [hexValue_cons, List.length_cons, Nat.pow_succ]
    have low := ih written.2
    have high := Nat.mul_le_mul_right (16 ^ rest.length) written.1.value_lt
    rw [Nat.succ_mul] at high
    omega

/-- Of two numbers in equally many digits, the smaller one comes first in the dictionary. -/
theorem lt_of_hexValue_lt {first second : List Char} (same : first.length = second.length)
    (one : ∀ c ∈ first, Written c) (two : ∀ c ∈ second, Written c) (less : hexValue first < hexValue second) :
    first < second := by
  induction first generalizing second with
  | nil =>
    cases second with
    | nil => exact absurd less (Nat.lt_irrefl _)
    | cons digit rest => cases same
  | cons digit rest ih =>
    cases second with
    | nil => cases same
    | cons other others =>
      rw [List.forall_mem_cons] at one two
      have length : rest.length = others.length := Nat.succ.inj same
      rw [hexValue_cons, hexValue_cons, length] at less
      rw [List.cons_lt_cons_iff]
      rcases Nat.lt_trichotomy (hexDigitValue digit) (hexDigitValue other) with below | equal | above
      · exact .inl (one.1.lt_of_value_lt two.1 below)
      · rw [equal] at less
        exact .inr ⟨one.1.eq_of_value_eq two.1 equal, ih length one.2 two.2 (Nat.lt_of_add_lt_add_left less)⟩
      · have rest := hexValue_lt two.2
        have first := Nat.mul_le_mul_right (16 ^ others.length) (Nat.succ_le_of_lt above)
        rw [Nat.succ_mul] at first
        omega

theorem hexValue_zeros (count : Nat) (digits : List Char) :
    hexValue (List.replicate count '0' ++ digits) = hexValue digits := by
  induction count with
  | zero => rfl
  | succ count ih =>
    rw [List.replicate_succ, List.cons_append]
    exact ih

end RegisterCatalog.Chars

namespace RegisterCatalog.Text

/-- The digits of a word: always eight. -/
def wordDigits (word : UInt32) : List Char :=
  List.replicate (8 - (Chars.hexDigits word.toNat).length) '0' ++ Chars.hexDigits word.toNat

theorem toList_hexWord (word : UInt32) : (hexWord word).toList = '0' :: 'x' :: wordDigits word := by
  rw [hexWord, String.toList_ofList, wordDigits]

theorem forall_wordDigits {good : Char → Prop} (each : ∀ digit < 16, good (Nat.digitChar digit)) (word : UInt32) :
    ∀ c ∈ wordDigits word, good c := by
  rw [wordDigits, List.forall_mem_append]
  refine ⟨?_, Chars.forall_hexDigits each word.toNat⟩
  intro c member
  rw [List.eq_of_mem_replicate member]
  exact each 0 (by decide)

theorem length_wordDigits (word : UInt32) : (wordDigits word).length = 8 := by
  have short : (Chars.hexDigits word.toNat).length ≤ 8 :=
    (Nat.length_toDigits_le_iff (by decide) (by decide)).mpr word.toNat_lt
  rw [wordDigits, List.length_append, List.length_replicate]
  omega

theorem length_hexWord (word : UInt32) : (hexWord word).length = 10 := by
  rw [← String.length_toList, toList_hexWord, List.length_cons, List.length_cons, length_wordDigits]

theorem hexValue_wordDigits (word : UInt32) : Chars.hexValue (wordDigits word) = word.toNat := by
  rw [wordDigits, Chars.hexValue_zeros, Chars.hexValue_hexDigits]

theorem hexWord_lt {first second : UInt32} (less : first < second) : hexWord first < hexWord second := by
  have written (word : UInt32) : ∀ c ∈ wordDigits word, Chars.Written c :=
    forall_wordDigits (fun digit small => ⟨digit, small, rfl⟩) word
  have digits : wordDigits first < wordDigits second := by
    apply Chars.lt_of_hexValue_lt _ (written first) (written second)
    · rw [hexValue_wordDigits, hexValue_wordDigits]
      exact less
    · rw [length_wordDigits, length_wordDigits]
  rw [String.lt_iff, toList_hexWord, toList_hexWord, List.cons_lt_cons_iff, List.cons_lt_cons_iff]
  exact .inr ⟨rfl, .inr ⟨rfl, digits⟩⟩

theorem literal?_hexWord (word : UInt32) : Chars.literal? (hexWord word).toList = some word.toNat := by
  have plain : (wordDigits word).filter (· != '_') = wordDigits word :=
    List.filter_eq_self.mpr (forall_wordDigits (by decide) word)
  have legal : (wordDigits word).all Chars.isHexDigit := List.all_eq_true.mpr (forall_wordDigits (by decide) word)
  have some : wordDigits word ≠ [] := by
    intro empty
    have eight := length_wordDigits word
    rw [empty] at eight
    cases eight
  have read : (hexWord word).toList.filter (· != '_') = '0' :: 'x' :: wordDigits word := by
    rw [toList_hexWord, List.filter_cons_of_pos (by decide), List.filter_cons_of_pos (by decide), plain]
  unfold Chars.literal?
  rw [read]
  simp [legal, some, hexValue_wordDigits]

theorem literal?_hexConstant (number : Nat) : Chars.literal? (hexConstant number).toList = some number := by
  unfold hexConstant
  split
  next single =>
    have digits : ∀ number < 10, Chars.literal? (toString number).toList = some number := by decide
    exact digits number (Nat.lt_succ_of_le single)
  next =>
    have read : ('0' :: 'x' :: Chars.groupByFour (Chars.hexDigits number)).filter (· != '_') =
        '0' :: 'x' :: Chars.hexDigits number := by
      rw [List.filter_cons_of_pos (by decide), List.filter_cons_of_pos (by decide), Chars.filter_groupByFour,
        Chars.filter_hexDigits]
    have legal : (Chars.hexDigits number).all Chars.isHexDigit :=
      List.all_eq_true.mpr (Chars.isHexDigit_of_mem_hexDigits number)
    unfold Chars.literal?
    rw [String.toList_ofList, read]
    simp [legal, Chars.hexDigits_ne_nil, Chars.hexValue_hexDigits]

theorem hexWord_injective {first second : UInt32} (same : hexWord first = hexWord second) : first = second := by
  have value := literal?_hexWord first
  rw [same, literal?_hexWord, Option.some.injEq] at value
  exact UInt32.toNat_inj.mp value.symm

end RegisterCatalog.Text
