import Mathlib.Data.List.Chain
import RegisterCatalog.Proofs.Hexadecimal

/-! How numbers are spelled. The digits of a constant stand in groups of four counted from the right, so its underscores
separate digits from digits. A word always has eight digits. Both are read back as the number they were made from. -/

namespace RegisterCatalog.Chars

variable {digits : List Char}

/-- Groups of four digits, except that the first may have fewer. -/
structure InFours (first : List Char) (others : List (List Char)) : Prop where
  nonempty : first ≠ []
  short : first.length ≤ 4
  full : ∀ group ∈ others, group.length = 4

variable {first : List Char} {others : List (List Char)}

theorem InFours.complete_iff (fours : InFours first others) :
    (first :: others).flatten.length % 4 = 0 ↔ first.length = 4 := by
  have lengths : others.map List.length = List.replicate others.length 4 :=
    List.eq_replicate_iff.mpr ⟨List.length_map _, List.forall_mem_map.mpr fours.full⟩
  have positive := List.length_pos_of_ne_nil fours.nonempty
  have bound := fours.short
  rw [List.flatten_cons, List.length_append, List.length_flatten, lengths, List.sum_replicate_nat]
  omega

theorem inFours_single (digit : Char) : InFours [digit] [] := ⟨nofun, by simp, nofun⟩

theorem InFours.opened (fours : InFours first others) (full : first.length = 4) (digit : Char) :
    InFours [digit] (first :: others) :=
  ⟨nofun, by simp, List.forall_mem_cons.mpr ⟨full, fours.full⟩⟩

theorem InFours.extended (fours : InFours first others) (room : first.length < 4) (digit : Char) :
    InFours (digit :: first) others :=
  ⟨nofun, room, fours.full⟩

theorem groupByFour_cons {rest : List Char} (nonempty : rest ≠ []) (digit : Char) :
    groupByFour (digit :: rest) =
      if rest.length % 4 = 0 then digit :: '_' :: groupByFour rest else digit :: groupByFour rest := by
  simp [groupByFour, nonempty]

/-- The digits keep their order, and underscores come between their groups. -/
theorem groupByFour_eq (nonempty : digits ≠ []) :
    ∃ first others, InFours first others ∧ (first :: others).flatten = digits ∧
      groupByFour digits = ['_'].intercalate (first :: others) := by
  induction digits with
  | nil => exact absurd rfl nonempty
  | cons digit rest ih =>
    by_cases empty : rest = []
    · subst empty
      exact ⟨[digit], [], inFours_single digit, rfl, rfl⟩
    · obtain ⟨first, others, fours, same, grouped⟩ := ih empty
      have complete := fours.complete_iff
      rw [same] at complete
      rw [groupByFour_cons empty, grouped]
      by_cases full : first.length = 4
      · rw [if_pos (complete.mpr full)]
        refine ⟨[digit], first :: others, fours.opened full digit, by rw [← same]; rfl, ?_⟩
        rw [List.intercalate_cons_cons]
        rfl
      · rw [if_neg (mt complete.mp full)]
        refine ⟨digit :: first, others, fours.extended (Nat.lt_of_le_of_ne fours.short full) digit, by rw [← same]; rfl, ?_⟩
        cases others <;> simp [List.intercalate_cons_cons]

theorem head?_groupByFour (digits : List Char) : (groupByFour digits).head? = digits.head? := by
  cases digits with
  | nil => rfl
  | cons digit rest =>
    unfold groupByFour
    split <;> rfl

theorem getLast?_groupByFour (digits : List Char) : (groupByFour digits).getLast? = digits.getLast? := by
  induction digits with
  | nil => rfl
  | cons digit rest ih =>
    by_cases empty : rest = []
    · subst empty
      rfl
    · obtain ⟨last, ends⟩ := Option.isSome_iff_exists.mp (List.getLast?_isSome.mpr empty)
      rw [groupByFour_cons empty]
      split <;> simp [List.getLast?_cons, ih, ends]

theorem isChain_groupByFour (plain : ∀ c ∈ digits, c ≠ '_') :
    (groupByFour digits).IsChain fun left right => left = '_' → right ≠ '_' := by
  induction digits with
  | nil => exact .nil
  | cons digit rest ih =>
    rw [List.forall_mem_cons] at plain
    have separate : ∀ after ∈ (groupByFour rest).head?, after ≠ '_' := by
      rw [head?_groupByFour]
      exact fun after head => plain.2 after (List.mem_of_mem_head? head)
    unfold groupByFour
    split
    · refine List.isChain_cons_cons.mpr ⟨fun mark => absurd mark plain.1, ?_⟩
      exact List.isChain_cons.mpr ⟨fun after head _ => separate after head, ih plain.2⟩
    · exact List.isChain_cons.mpr ⟨fun _ _ mark => absurd mark plain.1, ih plain.2⟩

theorem head?_hexDigits {number : Nat} (positive : 0 < number) : (hexDigits number).head? ≠ some '0' := by
  unfold hexDigits
  induction number using Nat.base_induction 16 (by decide) with
  | single digit small =>
    have plain : ∀ digit < 16, 0 < digit → Nat.digitChar digit ≠ '0' := by decide
    rw [Nat.toDigits_of_lt_base small]
    simpa using plain digit small positive
  | digit high digit small above ih =>
    rw [← Nat.toDigits_append_toDigits (by decide) above small, List.head?_append_of_ne_nil _ Nat.toDigits_ne_nil]
    exact ih above

/-- What stands after `0x` in the literal of a number. -/
structure GroupedDigits (number : Nat) (digits body : List Char) : Prop where
  lowerCase : ∀ c ∈ digits, isHexDigit c
  noLeadingZero : digits.head? ≠ some '0'
  grouped : ∃ first others, InFours first others ∧ (first :: others).flatten = digits ∧
    body = ['_'].intercalate (first :: others)
  notFirst : body.head? ≠ some '_'
  notLast : body.getLast? ≠ some '_'
  single : ¬ ['_', '_'] <:+: body
  deleted : body.filter (· != '_') = digits
  value : hexValue digits = number

theorem groupedDigits_of_pos {number : Nat} (positive : 0 < number) :
    GroupedDigits number (hexDigits number) (groupByFour (hexDigits number)) := by
  have plain : ∀ c ∈ hexDigits number, c ≠ '_' := forall_hexDigits (by decide) number
  refine ⟨isHexDigit_of_mem_hexDigits number, head?_hexDigits positive, groupByFour_eq (hexDigits_ne_nil number), ?_, ?_,
    ?_, ?_, hexValue_hexDigits number⟩
  · rw [head?_groupByFour]
    exact fun head => plain '_' (List.mem_of_mem_head? head) rfl
  · rw [getLast?_groupByFour]
    exact fun last => plain '_' (List.mem_of_getLast? last) rfl
  · rintro ⟨before, after, whole⟩
    have split : groupByFour (hexDigits number) = before ++ '_' :: '_' :: after := by simp [← whole]
    exact List.isChain_iff_forall_rel_of_append_cons_cons.mp (isChain_groupByFour plain) split rfl rfl
  · rw [filter_groupByFour, filter_hexDigits]

end RegisterCatalog.Chars

namespace RegisterCatalog.Text

theorem hexConstant_digit {number : Nat} (single : number ≤ 9) :
    ∃ digit, (hexConstant number).toList = [digit] ∧ digit.isDigit ∧ digit.toNat - '0'.toNat = number := by
  have spelled : ∀ number < 10, (toString number).toList = [Nat.digitChar number] ∧ (Nat.digitChar number).isDigit ∧
      (Nat.digitChar number).toNat - '0'.toNat = number := by decide
  rw [hexConstant, if_pos single]
  exact ⟨_, spelled number (Nat.lt_succ_of_le single)⟩

theorem hexConstant_grouped {number : Nat} (large : 9 < number) :
    ∃ digits body, (hexConstant number).toList = '0' :: 'x' :: body ∧ Chars.GroupedDigits number digits body := by
  rw [hexConstant, if_neg (Nat.not_le_of_lt large), String.toList_ofList]
  exact ⟨_, _, rfl, Chars.groupedDigits_of_pos (Nat.zero_lt_of_lt large)⟩

/-- Every number is spelled as a literal that denotes it: as one decimal digit, or as hexadecimal digits without leading
zeros in groups of four. Every word is spelled in ten characters, and greater words have greater spellings. -/
theorem numbers_spelled_as_literals :
    (∀ number, Chars.literal? (hexConstant number).toList = some number ∧
      (number ≤ 9 → ∃ digit, (hexConstant number).toList = [digit] ∧ digit.isDigit ∧ digit.toNat - '0'.toNat = number) ∧
      (9 < number → ∃ digits body, (hexConstant number).toList = '0' :: 'x' :: body ∧
        Chars.GroupedDigits number digits body)) ∧
    ∀ word, (hexWord word).length = 10 ∧ Chars.literal? (hexWord word).toList = some word.toNat ∧
      (∃ digits, (hexWord word).toList = '0' :: 'x' :: digits ∧ (∀ c ∈ digits, Chars.isHexDigit c) ∧
        Chars.hexValue digits = word.toNat) ∧
      ∀ greater, word < greater → hexWord word < hexWord greater := by
  constructor
  · intro number
    exact ⟨literal?_hexConstant number, hexConstant_digit, hexConstant_grouped⟩
  · intro word
    refine ⟨length_hexWord word, literal?_hexWord word, ?_, fun _ less => hexWord_lt less⟩
    exact ⟨_, toList_hexWord word, forall_wordDigits (by decide) word, hexValue_wordDigits word⟩

theorem numbers_spelled_as_literals_full_groups :
    (7 ≤ 9 ∧ ∃ digit, (hexConstant 7).toList = [digit] ∧ digit.isDigit ∧ digit.toNat - '0'.toNat = 7) ∧
    (9 < 0x12345678 ∧ ∃ digits body, (hexConstant 0x12345678).toList = '0' :: 'x' :: body ∧
      Chars.GroupedDigits 0x12345678 digits body) ∧
    hexConstant 0x12345678 = "0x1234_5678" ∧ hexConstant 0x123456789 = "0x1_2345_6789" ∧
    hexWord 0x9ABCDEF < hexWord 0xC0010203 := by
  obtain ⟨constants, words⟩ := numbers_spelled_as_literals
  have single : 7 ≤ 9 := by decide
  have large : 9 < 0x12345678 := by decide
  have less : (0x9ABCDEF : UInt32) < 0xC0010203 := by decide
  exact ⟨⟨single, (constants 7).2.1 single⟩, ⟨large, (constants 0x12345678).2.2 large⟩, by decide, by decide,
    (words 0x9ABCDEF).2.2.2 _ less⟩

end RegisterCatalog.Text
