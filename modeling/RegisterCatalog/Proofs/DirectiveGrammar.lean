import RegisterCatalog.Proofs.NumeralOrder
import RegisterCatalog.Proofs.Occurrences
import RegisterCatalog.Proofs.OrderFaults

/-! What the words after a name say. They are read from left to right, and an argument is taken as it stands, even if it
looks like a keyword. The words of one directive are a group; the reader accepts the lists of words that are made up of
groups, and no others. Two directives share a keyword, and only the rule behind it tells them apart. -/

namespace RegisterCatalog
open Outcome

namespace Chars

theorem decimal?_eq_some {digits : List Char} {number : Nat} :
    decimal? digits = some number ↔ Numeral digits ∧ decimalValue digits = number := by
  have value : digits.foldl (fun number digit => number * 10 + (digit.toNat - 48)) 0 = decimalValue digits := by
    rw [decimalValue, Nat.ofDigitChars_eq_foldl]
    simp only [Nat.mul_comm 10]
    rfl
  have refused : (digits.isEmpty || !digits.all Char.isDigit) ↔ ¬ Numeral digits := by
    simp [Numeral, Decidable.imp_iff_not_or]
  rw [decimal?, value]
  split
  next bad => simp [refused.mp bad]
  next good => simp [not_not.mp (mt refused.mpr good)]

theorem signedDecimal?_eq_some {text : List Char} {number : Nat} :
    signedDecimal? text = some number ↔
      ∃ digits, Numeral digits ∧ (text = digits ∨ text = '+' :: digits) ∧ decimalValue digits = number := by
  unfold signedDecimal?
  split
  next digits =>
    rw [decimal?_eq_some]
    constructor
    · rintro ⟨numeral, value⟩
      exact ⟨digits, numeral, .inr rfl, value⟩
    · rintro ⟨others, numeral, rfl | same, value⟩
      · exact absurd (numeral.2 '+' List.mem_cons_self) (by decide)
      · obtain ⟨_, rfl⟩ := List.cons.inj same
        exact ⟨numeral, value⟩
  next unsigned =>
    rw [decimal?_eq_some]
    constructor
    · rintro ⟨numeral, value⟩
      exact ⟨text, numeral, .inl rfl, value⟩
    · rintro ⟨digits, numeral, rfl | rfl, value⟩
      · exact ⟨numeral, value⟩
      · exact absurd rfl (unsigned digits)

end Chars

namespace Directive

def CanLimit (limit : Nat) : Prop := 0 < limit ∧ limit < UInt32.size

instance (limit : Nat) : Decidable (CanLimit limit) := inferInstanceAs (Decidable (_ ∧ _))

/-- The word is a numeral for the limit, with at most one plus sign before it. -/
def LimitWord (word : String) (limit : Nat) : Prop :=
  CanLimit limit ∧ ∃ digits, Chars.Numeral digits ∧ (word.toList = digits ∨ word.toList = '+' :: digits) ∧
    Chars.decimalValue digits = limit

/-- The rule has `old` before the separator that comes first in it, and `new` after it. -/
def Rule (separator rule old new : String) : Prop :=
  old ≠ "" ∧ Text.CutAtFirst separator rule old new

/-- The words of one directive. -/
inductive Group : Directive → List String → Prop
  | arrayLimit (starts : word.toList.head?.any Char.isDigit) (number : LimitWord word limit) :
      Group (.arrayLimit limit) [word]
  | domain (name : String) : Group (.domain name) ["-domain", name]
  | virtualImage (target : String) : Group (.virtualImage target) ["-virtual_mirror", target]
  | virtualExport : Group .virtualExport ["-virtual_export"]
  | replaceArray (plain : ¬ Text.Occurs "*=" rule) (cut : Rule "=" rule old new) (number : LimitWord word limit) :
      Group (.replaceArray old new limit) ["-replace_array", rule, word]
  | replaceStride (cut : Rule "*=" rule old stride) (number : LimitWord word limit) :
      Group (.replaceStride old stride limit) ["-replace_array", rule, word]
  | replaceString (cut : Rule "=" rule old new) : Group (.replaceString old new) ["-replace_string", rule]
  | synonym (name : String) : Group (.synonym name) ["-alias", name]
  | capability (name : String) : Group (.capability name) ["-cap", name]

def Grouped (words : List String) (directives : List Directive) : Prop :=
  ∃ groups, words = groups.flatten ∧ List.Forall₂ Group directives groups

theorem Grouped.cons {directive : Directive} {group words : List String} {directives : List Directive}
    (first : Group directive group) (rest : Grouped words directives) :
    Grouped (group ++ words) (directive :: directives) := by
  obtain ⟨groups, rfl, grouped⟩ := rest
  exact ⟨group :: groups, rfl, .cons first grouped⟩

theorem readLimit_eq_ok {word : String} {limit : Nat} : readLimit word = .ok limit ↔ LimitWord word limit := by
  have known : Text.word32? word = some limit ∧ 0 < limit ↔ LimitWord word limit := by
    rw [Text.word32?, Option.filter_eq_some_iff, Chars.signedDecimal?_eq_some, LimitWord, CanLimit]
    simp only [decide_eq_true_eq]
    exact ⟨fun ⟨⟨numeral, small⟩, positive⟩ => ⟨⟨positive, small⟩, numeral⟩,
      fun ⟨⟨positive, small⟩, numeral⟩ => ⟨⟨numeral, small⟩, positive⟩⟩
  rw [← known, readLimit]
  split
  next smaller found =>
    rw [found, Option.some_inj]
    constructor
    · intro same
      cases same
      exact ⟨rfl, Nat.succ_pos smaller⟩
    · rintro ⟨rfl, _⟩
      rfl
  next others =>
    constructor
    · intro same
      cases same
    · rintro ⟨found, positive⟩
      obtain ⟨smaller, rfl⟩ := Nat.exists_eq_add_of_lt positive
      exact absurd found (others _)

theorem splitRule_eq_ok {keyword separator rule old new : String} :
    splitRule keyword separator rule = .ok (old, new) ↔ Rule separator rule old new := by
  rw [Rule, ← Text.splitOnce_eq_some, splitRule]
  split
  next left right found =>
    rw [found]
    split
    next empty =>
      rw [String.isEmpty_iff] at empty
      constructor
      · intro same
        cases same
      · rintro ⟨nonempty, same⟩
        cases same
        exact absurd empty nonempty
    next nonempty =>
      constructor
      · intro same
        cases same
        exact ⟨mt String.isEmpty_iff.mpr nonempty, rfl⟩
      · rintro ⟨_, same⟩
        cases same
        rfl
  next absent => simp [absent]

section Reader

variable {word rule argument : String} {directive : Directive}

theorem group_of_readArrayRule (read : readArrayRule rule word = .ok directive) :
    Group directive [arrayWord, rule, word] := by
  obtain ⟨limit, number, read⟩ := bind_eq_ok.mp read
  rw [readLimit_eq_ok] at number
  split at read
  next =>
    obtain ⟨⟨old, stride⟩, cut, same⟩ := bind_eq_ok.mp read
    cases same
    exact .replaceStride (splitRule_eq_ok.mp cut) number
  next plain =>
    obtain ⟨⟨old, new⟩, cut, same⟩ := bind_eq_ok.mp read
    cases same
    exact .replaceArray (mt Text.contains_iff_occurs.mpr plain) (splitRule_eq_ok.mp cut) number

theorem group_of_read {keyword : Keyword} (read : keyword.read argument = .ok directive) :
    Group directive [keyword.word, argument] := by
  cases keyword with
  | domain =>
    cases read
    exact .domain argument
  | virtualImage =>
    cases read
    exact .virtualImage argument
  | synonym =>
    cases read
    exact .synonym argument
  | capability =>
    cases read
    exact .capability argument
  | replaceString =>
    obtain ⟨⟨old, new⟩, cut, same⟩ := bind_eq_ok.mp read
    cases same
    exact .replaceString (splitRule_eq_ok.mp cut)

theorem group_of_readBare (read : readBare word = .ok directive) : Group directive [word] := by
  unfold readBare at read
  split at read
  next starts =>
    rw [map_eq_pure_bind] at read
    obtain ⟨limit, number, same⟩ := bind_eq_ok.mp read
    cases same
    exact .arrayLimit starts (readLimit_eq_ok.mp number)
  next => cases read

theorem grouped_of_readAll {words : List String} {directives : List Directive} (read : readAll words = .ok directives) :
    Grouped words directives := by
  fun_induction readAll words generalizing directives with
  | case1 =>
    cases read
    exact ⟨[], rfl, .nil⟩
  | case2 rest ih =>
    obtain ⟨later, known, same⟩ := bind_eq_ok.mp read
    cases same
    exact .cons .virtualExport (ih known)
  | case3 rule limit rest _ ih =>
    obtain ⟨directive, first, read⟩ := bind_eq_ok.mp read
    obtain ⟨later, known, same⟩ := bind_eq_ok.mp read
    cases same
    exact .cons (group_of_readArrayRule first) (ih known)
  | case4 => cases read
  | case5 word _ _ keyword found argument rest ih =>
    obtain ⟨directive, first, read⟩ := bind_eq_ok.mp read
    obtain ⟨later, known, same⟩ := bind_eq_ok.mp read
    cases same
    rw [← Keyword.ofWord?_eq_some.mp found]
    exact .cons (group_of_read first) (ih known)
  | case6 => cases read
  | case7 word rest _ _ _ ih =>
    obtain ⟨directive, first, read⟩ := bind_eq_ok.mp read
    obtain ⟨later, known, same⟩ := bind_eq_ok.mp read
    cases same
    exact .cons (group_of_readBare first) (ih known)

theorem readAll_keyword (keyword : Keyword) (read : keyword.read argument = .ok directive) (rest : List String) :
    readAll (keyword.word :: argument :: rest) = do return directive :: (← readAll rest) := by
  have own : keyword.word ≠ exportWord ∧ keyword.word ≠ arrayWord := by cases keyword <;> decide
  rw [readAll.eq_def]
  dsimp only
  rw [if_neg own.1, if_neg own.2, Keyword.ofWord?_eq_some.mpr rfl]
  dsimp only
  rw [read]
  rfl

theorem readAll_array (read : readArrayRule rule word = .ok directive) (rest : List String) :
    readAll (arrayWord :: rule :: word :: rest) = do return directive :: (← readAll rest) := by
  rw [readAll.eq_def]
  dsimp only
  rw [if_neg (by decide), if_pos rfl, read]
  rfl

theorem readAll_bare (starts : word.toList.head?.any Char.isDigit) (read : readLimit word = .ok limit)
    (rest : List String) : readAll (word :: rest) = do return .arrayLimit limit :: (← readAll rest) := by
  have exported : word ≠ exportWord := by
    rintro rfl
    cases starts
  have array : word ≠ arrayWord := by
    rintro rfl
    cases starts
  have unknown : Keyword.ofWord? word = none := by
    rw [Option.eq_none_iff_forall_ne_some]
    intro keyword found
    rw [← Keyword.ofWord?_eq_some.mp found] at starts
    cases keyword <;> cases starts
  rw [readAll.eq_def]
  dsimp only
  rw [if_neg exported, if_neg array, unknown]
  dsimp only
  rw [readBare, if_pos starts, read]
  rfl

theorem readAll_append {group : List String} (words : Group directive group) (rest : List String) :
    readAll (group ++ rest) = do return directive :: (← readAll rest) := by
  cases words with
  | arrayLimit starts number => exact readAll_bare starts (readLimit_eq_ok.mpr number) rest
  | domain name => exact readAll_keyword .domain rfl rest
  | virtualImage target => exact readAll_keyword .virtualImage rfl rest
  | virtualExport =>
    rw [List.singleton_append, readAll.eq_def]
    exact if_pos rfl
  | replaceArray plain cut number =>
    refine readAll_array (bind_eq_ok.mpr ⟨_, readLimit_eq_ok.mpr number, ?_⟩) rest
    rw [if_neg (mt Text.contains_iff_occurs.mp plain)]
    exact bind_eq_ok.mpr ⟨_, splitRule_eq_ok.mpr cut, rfl⟩
  | replaceStride cut number =>
    have occurs : Text.Occurs "*=" _ := ⟨_, _, cut.2.1⟩
    refine readAll_array (bind_eq_ok.mpr ⟨_, readLimit_eq_ok.mpr number, ?_⟩) rest
    rw [if_pos (Text.contains_iff_occurs.mpr occurs)]
    exact bind_eq_ok.mpr ⟨_, splitRule_eq_ok.mpr cut, rfl⟩
  | replaceString cut =>
    exact readAll_keyword .replaceString (bind_eq_ok.mpr ⟨_, splitRule_eq_ok.mpr cut, rfl⟩) rest
  | synonym name => exact readAll_keyword .synonym rfl rest
  | capability name => exact readAll_keyword .capability rfl rest

end Reader

theorem readAll_of_grouped {words : List String} {directives : List Directive} (grouped : Grouped words directives) :
    readAll words = .ok directives := by
  obtain ⟨groups, rfl, each⟩ := grouped
  induction each with
  | nil => rfl
  | cons first _ ih =>
    rw [List.flatten_cons, readAll_append first, ih]
    rfl

/-- The words that stand for a directive. -/
def words : Directive → List String
  | arrayLimit limit => [toString limit]
  | domain name => ["-domain", name]
  | virtualImage target => ["-virtual_mirror", target]
  | virtualExport => ["-virtual_export"]
  | replaceArray old new limit => ["-replace_array", old ++ "=" ++ new, toString limit]
  | replaceStride old stride limit => ["-replace_array", old ++ "*=" ++ stride, toString limit]
  | replaceString old new => ["-replace_string", old ++ "=" ++ new]
  | synonym name => ["-alias", name]
  | capability name => ["-cap", name]

/-- The words of the directive are read as this directive. -/
def Printable : Directive → Prop
  | arrayLimit limit => CanLimit limit
  | replaceArray old new limit =>
    old ≠ "" ∧ ¬ Text.Occurs "=" old ∧ ¬ Text.Occurs "*=" (old ++ "=" ++ new) ∧ CanLimit limit
  | replaceStride old _ limit => old ≠ "" ∧ ¬ Text.Occurs "*=" old ∧ CanLimit limit
  | replaceString old _ => old ≠ "" ∧ ¬ Text.Occurs "=" old
  | _ => True

instance (directive : Directive) : Decidable directive.Printable :=
  match directive with
  | arrayLimit _ => inferInstanceAs (Decidable (CanLimit _))
  | replaceArray .. => inferInstanceAs (Decidable (_ ∧ _))
  | replaceStride .. => inferInstanceAs (Decidable (_ ∧ _))
  | replaceString .. => inferInstanceAs (Decidable (_ ∧ _))
  | domain _ | virtualImage _ | virtualExport | synonym _ | capability _ => isTrue trivial

theorem limitWord_toString {limit : Nat} (bounded : CanLimit limit) : LimitWord (toString limit) limit := by
  refine ⟨bounded, Nat.toDigits 10 limit, ⟨Nat.toDigits_ne_nil, ?_⟩, .inl ?_, Nat.ofDigitChars_ten_toDigits⟩
  · intro c member
    exact Nat.isDigit_of_mem_toDigits (by decide) (by decide) member
  · rw [Nat.toString_eq_ofList_toDigits, String.toList_ofList]

theorem toString_starts (limit : Nat) : (toString limit).toList.head?.any Char.isDigit := by
  rw [Nat.toString_eq_ofList_toDigits, String.toList_ofList, List.head?_eq_some_head Nat.toDigits_ne_nil]
  exact Nat.isDigit_of_mem_toDigits (by decide) (by decide) (List.head_mem _)

theorem rule_append {separator old : String} {c : Char} {others : List Char} (spelled : separator.toList = c :: others)
    (apart : c ∉ others) (nonempty : old ≠ "") (absent : ¬ Text.Occurs separator old) (new : String) :
    Rule separator (old ++ separator ++ new) old new := by
  refine ⟨nonempty, Text.cutAtFirst_iff.mpr ?_⟩
  rw [Text.occurs_iff, spelled] at absent
  rw [String.toList_append, String.toList_append, spelled]
  exact Chars.cutAtFirst_append apart absent new.toList

theorem group_words {directive : Directive} (printable : directive.Printable) : Group directive directive.words := by
  cases directive with
  | arrayLimit limit => exact .arrayLimit (toString_starts limit) (limitWord_toString printable)
  | domain name => exact .domain name
  | virtualImage target => exact .virtualImage target
  | virtualExport => exact .virtualExport
  | replaceArray old new limit =>
    obtain ⟨nonempty, absent, plain, bounded⟩ := printable
    exact .replaceArray plain (rule_append rfl List.not_mem_nil nonempty absent new) (limitWord_toString bounded)
  | replaceStride old stride limit =>
    obtain ⟨nonempty, absent, bounded⟩ := printable
    exact .replaceStride (rule_append rfl (by decide) nonempty absent stride) (limitWord_toString bounded)
  | replaceString old new =>
    obtain ⟨nonempty, absent⟩ := printable
    exact .replaceString (rule_append rfl List.not_mem_nil nonempty absent new)
  | synonym name => exact .synonym name
  | capability name => exact .capability name

theorem Rule.absent {separator rule old new : String} (cut : Rule separator rule old new) (nonempty : separator ≠ "") :
    ¬ Text.Occurs separator old := by
  rintro ⟨before, after, rfl⟩
  obtain ⟨_, whole, first⟩ := cut
  have sooner := first before (after ++ separator ++ new) (by rw [whole]; simp only [String.append_assoc])
  have length : 0 < separator.length := Nat.pos_of_ne_zero (mt String.length_eq_zero_iff.mp nonempty)
  rw [String.length_append, String.length_append] at sooner
  omega

theorem printable_iff_exists_group {directive : Directive} : directive.Printable ↔ ∃ words, Group directive words := by
  constructor
  · exact fun printable => ⟨_, group_words printable⟩
  · rintro ⟨words, group⟩
    cases group with
    | arrayLimit _ number => exact number.1
    | domain | virtualImage | virtualExport | synonym | capability => trivial
    | replaceArray plain cut number => exact ⟨cut.1, cut.absent (by decide), cut.2.1 ▸ plain, number.1⟩
    | replaceStride cut number => exact ⟨cut.1, cut.absent (by decide), number.1⟩
    | replaceString cut => exact ⟨cut.1, cut.absent (by decide)⟩

/-- The reader accepts what is made up of groups and nothing else. The directives that have a group are those that can
be printed, and the words of such directives are read as these directives again. -/
theorem accepted_iff_grouped :
    (∀ words directives, readAll words = .ok directives ↔ Grouped words directives) ∧
    (∀ directive : Directive, directive.Printable ↔ ∃ words, Group directive words) ∧
    ∀ directives : List Directive, (∀ directive ∈ directives, directive.Printable) →
      readAll (directives.flatMap Directive.words) = .ok directives := by
  refine ⟨fun words directives => ⟨grouped_of_readAll, readAll_of_grouped⟩, fun _ => printable_iff_exists_group, ?_⟩
  intro directives printable
  refine readAll_of_grouped ⟨directives.map Directive.words, List.flatMap_def, ?_⟩
  rw [List.forall₂_map_right_iff, List.forall₂_same]
  exact fun directive member => group_words (printable directive member)

/-- An argument may look like a keyword, and a limit may have a sign and leading zeros; neither is printed so. -/
theorem accepted_iff_grouped_mixed :
    Grouped ["-domain", "-alias", "-replace_array", "A=B*=C", "+08", "12"]
      [.domain "-alias", .replaceStride "A=B" "C" 8, .arrayLimit 12] ∧
    (∀ directives, ¬ Grouped ["-replace_array", "GPCx=GPC%d", "-cap"] directives) ∧
    readAll (([.replaceArray "GPCx" "GPC*%d=" 8, .replaceStride "TPCx=*" "" 4, .replaceString "CHIP*" "=0"] :
        List Directive).flatMap Directive.words) =
      .ok [.replaceArray "GPCx" "GPC*%d=" 8, .replaceStride "TPCx=*" "" 4, .replaceString "CHIP*" "=0"] := by
  refine ⟨?_, ?_, ?_⟩
  · exact (accepted_iff_grouped.1 _ _).mp (by decide +kernel)
  · intro directives grouped
    have refused : (readAll ["-replace_array", "GPCx=GPC%d", "-cap"]).toOption = none := by decide +kernel
    rw [(accepted_iff_grouped.1 _ _).mpr grouped] at refused
    cases refused
  · exact accepted_iff_grouped.2.2 _ (by decide +kernel)

end Directive
end RegisterCatalog
