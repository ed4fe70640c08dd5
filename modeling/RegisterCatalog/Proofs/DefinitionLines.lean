import RegisterCatalog.Proofs.Comments

/-! Definitions as they are laid out on a line. Blanks may stand before the line, behind `#define`, around the parameters
and before the body, and a comment may stand behind it. Reading the line gives back what was written. -/

namespace RegisterCatalog
open Chars

structure WrittenParameter where
  before : List Char
  name : List Char
  after : List Char
  before_blank : ∀ c ∈ before, isBlank c
  after_blank : ∀ c ∈ after, isBlank c
  named : name ≠ []
  name_plain : ∀ c ∈ name, isBlank c = false ∧ c ≠ ',' ∧ c ≠ '(' ∧ c ≠ ')'

def WrittenParameter.text (parameter : WrittenParameter) : List Char :=
  parameter.before ++ parameter.name ++ parameter.after

/-- A comment behind a body, with the blanks that set it off. -/
inductive Remark
  | none
  | line (gap text : List Char)
  | block (gap text : List Char)

namespace Remark

def text : Remark → List Char
  | none => []
  | line gap text => gap ++ (lineOpener ++ text)
  | block gap text => gap ++ (blockOpener ++ (text ++ blockCloser))

/-- A block is closed by its own closer. -/
def SetOff : Remark → Prop
  | none => True
  | line gap _ => gap ≠ [] ∧ ∀ c ∈ gap, isBlank c
  | block gap text => gap ≠ [] ∧ (∀ c ∈ gap, isBlank c) ∧ ¬ blockCloser <:+: text

end Remark

/-- A definition as it is laid out on a line. Parentheses are only written around parameters. -/
structure DefinitionLine where
  indent : List Char
  gap : List Char
  key : List Char
  parameters : List WrittenParameter
  space : List Char
  body : List Char
  remark : Remark
  trailing : List Char
  indent_blank : ∀ c ∈ indent, isBlank c
  gap_blank : ∀ c ∈ gap, isBlank c
  gap_some : gap ≠ []
  keyed : key ≠ []
  key_plain : ∀ c ∈ key, isBlank c = false ∧ c ≠ '(' ∧ c ≠ ')'
  space_blank : ∀ c ∈ space, isBlank c
  space_some : space ≠ []
  body_some : body ≠ []
  body_spaced : SingleSpaced body
  body_free : CommentFree body
  remark_setOff : remark.SetOff
  trailing_blank : ∀ c ∈ trailing, isBlank c

namespace DefinitionLine

def parameterText (line : DefinitionLine) : List Char :=
  [','].intercalate (line.parameters.map WrittenParameter.text)

def signature (line : DefinitionLine) : List Char :=
  if line.parameters = [] then line.key else line.key ++ '(' :: (line.parameterText ++ [')'])

def rest (line : DefinitionLine) : List Char := line.body ++ (line.remark.text ++ line.trailing)

def text (line : DefinitionLine) : List Char :=
  line.indent ++ ("#define".toList ++ (line.gap ++ (line.signature ++ (line.space ++ line.rest))))

end DefinitionLine

/-! ### Parameters -/

namespace Chars

variable {isCut : Char → Bool} {before : List Char} {c : Char} {parts : List (List Char)}

theorem cutAt_append (kept : ∀ d ∈ before, isCut d = false) (cut : isCut c) (after : List Char) :
    cutAt isCut (before ++ c :: after) = some (before, after) := by
  have passed : ∀ d ∈ before, !isCut d := by simpa using kept
  rw [cutAt, List.dropWhile_append_of_pos passed, List.takeWhile_append_of_pos passed]
  simp [cut]

theorem cutAt_eq_none (kept : ∀ d ∈ before, isCut d = false) : cutAt isCut before = none := by
  have all : before.dropWhile (!isCut ·) = [] := by simpa [List.dropWhile_eq_nil_iff] using kept
  rw [cutAt, all]

theorem forall_intercalate {good : Char → Prop} (mark : good c) (each : ∀ part ∈ parts, ∀ d ∈ part, good d) :
    ∀ d ∈ [c].intercalate parts, good d := by
  induction parts with
  | nil => simp
  | cons part rest ih =>
    rw [List.forall_mem_cons] at each
    cases rest with
    | nil => simpa using each.1
    | cons next later =>
      simp only [List.intercalate_cons_cons, List.forall_mem_append, List.forall_mem_singleton]
      exact ⟨⟨each.1, mark⟩, ih each.2⟩

theorem count_intercalate (some : parts ≠ []) (absent : ∀ part ∈ parts, c ∉ part) :
    ([c].intercalate parts).count c + 1 = parts.length := by
  induction parts with
  | nil => exact absurd rfl some
  | cons part rest ih =>
    rw [List.forall_mem_cons] at absent
    cases rest with
    | nil => simp [List.count_eq_zero.mpr absent.1]
    | cons next later =>
      have others := ih (List.cons_ne_nil next later) absent.2
      simp only [List.intercalate_cons_cons, List.count_append, List.count_eq_zero.mpr absent.1, List.count_singleton_self,
        List.length_cons] at others ⊢
      omega

end Chars

theorem WrittenParameter.plain (parameter : WrittenParameter) :
    ∀ c ∈ parameter.text, c ≠ ',' ∧ c ≠ '(' ∧ c ≠ ')' := by
  have blank {c : Char} (blank : isBlank c) : c ≠ ',' ∧ c ≠ '(' ∧ c ≠ ')' := by
    refine ⟨?_, ?_, ?_⟩ <;> rintro rfl <;> revert blank <;> decide
  simp only [text, List.forall_mem_append]
  exact ⟨⟨fun c member => blank (parameter.before_blank c member), fun c member => (parameter.name_plain c member).2⟩,
    fun c member => blank (parameter.after_blank c member)⟩

namespace DefinitionLine

variable (line : DefinitionLine)

theorem parameterText_plain : ∀ c ∈ line.parameterText, c ≠ '(' ∧ c ≠ ')' := by
  refine forall_intercalate (c := ',') (by decide) ?_
  intro part member d inside
  obtain ⟨parameter, _, rfl⟩ := List.mem_map.mp member
  exact (parameter.plain d inside).2

theorem count_parameterText (some : line.parameters ≠ []) : line.parameterText.count ',' + 1 = line.parameters.length := by
  have absent : ∀ part ∈ line.parameters.map WrittenParameter.text, ',' ∉ part := by
    intro part member comma
    obtain ⟨parameter, _, rfl⟩ := List.mem_map.mp member
    exact (parameter.plain ',' comma).1 rfl
  rw [parameterText, count_intercalate (by simpa using some) absent, List.length_map]

theorem key_before_parameters : ∀ c ∈ line.key, (c == '(') = false :=
  fun c member => beq_eq_false_iff_ne.mpr (line.key_plain c member).2.1

theorem splitParameters_key (some : line.parameters ≠ []) {close : List Char} (closing : close.count ',' = 0) :
    splitParameters (line.key ++ '(' :: (line.parameterText ++ close)) = (line.key, line.parameters.length) := by
  rw [splitParameters, cutAt_append line.key_before_parameters (by decide)]
  simp only [List.count_append, closing, Nat.add_zero, line.count_parameterText some]

/-- The name is found whether its parameters have blanks around them or not. -/
theorem splitName_signature : ∃ name blanks, (∀ c ∈ blanks, isBlank c) ∧
    splitName (line.signature ++ (line.space ++ line.rest)) = some (name, blanks ++ line.rest) ∧
    splitParameters name = (line.key, line.parameters.length) := by
  have unbroken : ∀ c ∈ line.key, isBlank c = false := fun c member => (line.key_plain c member).1
  obtain ⟨blank, blanks, spaced⟩ := List.exists_cons_of_ne_nil line.space_some
  have space_blank := line.space_blank
  rw [spaced, List.forall_mem_cons] at space_blank
  by_cases some : line.parameters = []
  · have opener : '(' ∉ line.key := fun member => (line.key_plain _ member).2.1 rfl
    refine ⟨line.key, blanks, space_blank.2, ?_, ?_⟩
    · rw [signature, if_pos some, splitName, spaced, List.cons_append, cutAt_append unbroken space_blank.1]
      simp [opener]
    · rw [splitParameters, cutAt_eq_none line.key_before_parameters, some]
      rfl
  · cases found : line.parameterText.find? isBlank with
    | none =>
      have inner : ∀ c ∈ line.parameterText, isBlank c = false := by simpa using List.find?_eq_none.mp found
      have letters : ∀ c ∈ line.signature, isBlank c = false := by
        rw [signature, if_neg some]
        simp only [List.forall_mem_append, List.forall_mem_cons]
        exact ⟨unbroken, by decide, inner, by decide, List.forall_mem_nil _⟩
      refine ⟨line.signature, blanks, space_blank.2, ?_, ?_⟩
      · rw [splitName, spaced, List.cons_append, cutAt_append letters space_blank.1]
        simp [signature, some]
      · rw [signature, if_neg some, line.splitParameters_key some (by decide)]
    | some c =>
      obtain ⟨blank, left, right, cut, letters⟩ := List.find?_eq_some_iff_append.mp found
      have unclosed : ∀ d ∈ line.key ++ '(' :: line.parameterText, (d == ')') = false := by
        simp only [List.forall_mem_append, List.forall_mem_cons, beq_eq_false_iff_ne]
        exact ⟨fun d member => (line.key_plain d member).2.2, by decide, fun d member => (line.parameterText_plain d member).2⟩
      have closed : ')' ∉ line.key ++ '(' :: left := by
        intro member
        have inside : ')' ∈ line.key ++ '(' :: line.parameterText := by
          simp only [cut, List.mem_append, List.mem_cons] at member ⊢
          tauto
        exact absurd (unclosed _ inside) (by decide)
      have before : ∀ d ∈ line.key ++ '(' :: left, isBlank d = false := by
        simp only [List.forall_mem_append, List.forall_mem_cons]
        exact ⟨unbroken, by decide, by simpa using letters⟩
      have byBlank : line.signature ++ (line.space ++ line.rest) =
          (line.key ++ '(' :: left) ++ c :: (right ++ ')' :: (line.space ++ line.rest)) := by
        simp [signature, some, cut]
      have byCloser : line.signature ++ (line.space ++ line.rest) =
          (line.key ++ '(' :: line.parameterText) ++ ')' :: (line.space ++ line.rest) := by
        simp [signature, some]
      refine ⟨line.key ++ '(' :: line.parameterText, line.space, line.space_blank, ?_, ?_⟩
      · rw [splitName, byBlank, cutAt_append before blank, ← byBlank, byCloser, cutAt_append unclosed (by decide)]
        simp [closed]
      · rw [← List.append_nil line.parameterText, line.splitParameters_key some List.count_nil]

end DefinitionLine

/-! ### Bodies -/

namespace Chars

variable {body gap : List Char}

theorem dropComments_gap (free : CommentFree body) (present : gap ≠ []) (blanks : ∀ c ∈ gap, isBlank c) (rest : List Char) :
    dropComments .code (body ++ (gap ++ rest)) = body ++ gap ++ dropComments .code rest := by
  have kept : dropComments .code (gap ++ rest) = gap ++ dropComments .code rest := by
    clear present
    induction gap with
    | nil => rfl
    | cons c others ih =>
      rw [List.forall_mem_cons] at blanks
      have notSlash : c ≠ '/' := by
        rintro rfl
        exact absurd blanks.1 (by decide)
      simp [dropComments, notSlash, ih blanks.2]
  have separate : CommentFree (body ++ (gap ++ rest).take 1) := by
    obtain ⟨first, others, split⟩ := List.exists_cons_of_ne_nil present
    have blank : isBlank first := blanks first (by simp [split])
    rw [split, commentFree_iff]
    refine List.isChain_append.mpr ⟨commentFree_iff.mp free, .singleton first, ?_⟩
    rintro c _ d same _
    cases same
    constructor <;> rintro rfl <;> revert blank <;> decide
  rw [dropComments_append separate, kept, List.append_assoc]

theorem cleanBody_eq_of_dropComments {text blanks : List Char} (spaced : SingleSpaced body)
    (blank : ∀ c ∈ blanks, isBlank c) (dropped : dropComments .code text = body ++ blanks) : cleanBody text = body := by
  have trimmed : trim body = body := by rw [trim, trimStart_eq_self spaced.start, trimEnd_eq_self spaced.stop]
  calc cleanBody text
    _ = joinWords body := by rw [cleanBody, dropped, words_append_blanks body blank, joinWords]
    _ = squeeze (trim body) := joinWords_eq_squeeze_trim body
    _ = body := by rw [trimmed, squeeze_eq_self spaced.spaces spaced.stop spaced.single]

end Chars

theorem Remark.dropComments_behind {remark : Remark} (setOff : remark.SetOff) {body trailing : List Char}
    (free : CommentFree body) (blanks : ∀ c ∈ trailing, isBlank c) :
    ∃ kept, (∀ c ∈ kept, isBlank c) ∧ dropComments .code (body ++ trimEnd (remark.text ++ trailing)) = body ++ kept := by
  cases remark with
  | none =>
    have nothing : trimEnd (text none ++ trailing) = [] := trimEnd_append_blanks [] blanks
    refine ⟨[], by simp, ?_⟩
    rw [nothing, List.append_nil, dropComments_of_commentFree free]
  | line gap text =>
    obtain ⟨present, blank⟩ := setOff
    refine ⟨gap, blank, ?_⟩
    have ended : trimEnd (Remark.text (line gap text) ++ trailing) = gap ++ (lineOpener ++ trimEnd (text ++ trailing)) := by
      have letter : ∀ c ∈ (gap ++ lineOpener).getLast?, isBlank c = false := by simp [lineOpener]; decide
      rw [Remark.text, ← List.append_assoc gap, List.append_assoc _ text, trimEnd_append letter, List.append_assoc]
    rw [ended, dropComments_gap free present blank]
    simp [lineOpener, dropComments]
  | block gap text =>
    obtain ⟨present, blank, unclosed⟩ := setOff
    refine ⟨gap, blank, ?_⟩
    have letter : ∀ c ∈ (Remark.text (block gap text)).getLast?, isBlank c = false := by
      simp [Remark.text, blockCloser]; decide
    have closed : splitOnce blockCloser (text ++ blockCloser) = some (text, []) := by
      have cut := cutAtFirst_append (by decide) unclosed []
      rw [List.append_nil] at cut
      exact splitOnce_eq_some.mpr cut
    have dropped : dropComments .code (blockOpener ++ (text ++ blockCloser)) = [] := by
      rw [blockOpener, List.cons_append, List.cons_append, List.nil_append, dropComments, dropComments_block, closed]
      rfl
    rw [trimEnd_append_blanks _ blanks, trimEnd_eq_self letter, Remark.text, dropComments_gap free present blank, dropped,
      List.append_nil]

namespace DefinitionLine

variable (line : DefinitionLine)

theorem head?_rest : ∀ c ∈ line.rest.head?, isBlank c = false := by
  rw [rest, List.head?_append_of_ne_nil _ line.body_some]
  exact line.body_spaced.start

theorem head?_signature (behind : List Char) : ∀ c ∈ (line.signature ++ behind).head?, isBlank c = false := by
  obtain ⟨first, others, keyed⟩ := List.exists_cons_of_ne_nil line.keyed
  have letter : isBlank first = false := (line.key_plain first (by simp [keyed])).1
  have starts : (line.signature ++ behind).head? = some first := by
    unfold signature
    split <;> simp [keyed]
  intro c member
  cases starts.symm.trans member
  exact letter

theorem trimEnd_rest : trimEnd line.rest = line.body ++ trimEnd (line.remark.text ++ line.trailing) :=
  trimEnd_append line.body_spaced.stop _

theorem cleanBody_rest : cleanBody (trimEnd line.rest) = line.body := by
  obtain ⟨kept, blank, dropped⟩ := Remark.dropComments_behind line.remark_setOff line.body_free line.trailing_blank
  rw [line.trimEnd_rest]
  exact cleanBody_eq_of_dropComments line.body_spaced blank dropped

theorem behind_keyword : "#define".toList.isPrefixOf? (trimStart line.text) =
    some (line.gap ++ (line.signature ++ (line.space ++ line.rest))) := by
  rw [List.isPrefixOf?_eq_some_iff_append_eq, text, trimStart_blanks_append line.indent_blank]
  exact (trimStart_eq_self (by simp; decide)).symm

/-- Reading a definition undoes writing it. What is kept as written reaches from the body to the last character that is
not blank. -/
theorem ofLine?_text : ∃ written blanks, line.rest = written ++ blanks ∧ (∀ c ∈ blanks, isBlank c) ∧
    (∀ c ∈ written.getLast?, isBlank c = false) ∧
    Definition.ofLine? (String.ofList line.text) = some (String.ofList line.key,
      { written := String.ofList written, value := String.ofList line.body, parameters := line.parameters.length }) := by
  obtain ⟨⟨ending, endingBlank, whole⟩, last⟩ := trimEnd_spec line.rest
  obtain ⟨name, blanks, blank, named, parts⟩ := line.splitName_signature
  refine ⟨trimEnd line.rest, ending, whole, endingBlank, last, ?_⟩
  have chars : (String.ofList line.text).toList = line.text := String.toList_ofList
  have gapped : (line.gap ++ (line.signature ++ (line.space ++ line.rest))).head?.any isBlank := by
    obtain ⟨first, others, gap⟩ := List.exists_cons_of_ne_nil line.gap_some
    simpa [gap] using line.gap_blank first (by simp [gap])
  have signed : trimStart (line.gap ++ (line.signature ++ (line.space ++ line.rest))) =
      line.signature ++ (line.space ++ line.rest) := by
    rw [trimStart_blanks_append line.gap_blank, trimStart_eq_self (line.head?_signature _)]
  have written : trim (blanks ++ line.rest) = trimEnd line.rest := by
    rw [trim, trimStart_blanks_append blank, trimStart_eq_self line.head?_rest]
  have present : ¬ (trimEnd line.rest).isEmpty := by simp [line.trimEnd_rest, line.body_some]
  rw [Definition.ofLine?, chars, line.behind_keyword]
  dsimp only
  rw [if_pos gapped, signed, named]
  dsimp only
  rw [written, if_neg present, parts, line.cleanBody_rest]

/-- A definition with blanks wherever they may stand, and a comment that almost closes early. -/
def spacious : DefinitionLine where
  indent := [' ']
  gap := ['\t']
  key := "LW_X".toList
  parameters := [⟨[' '], ['i'], [' '], by simp; decide, by simp; decide, by simp, by simp; decide⟩,
    ⟨[' '], ['j'], [], by simp; decide, by simp, by simp, by simp; decide⟩]
  space := [' ', '\t']
  body := "(i + j)".toList
  remark := .block [' '] "/ both *".toList
  trailing := [' ']
  indent_blank := by simp; decide
  gap_blank := by simp; decide
  gap_some := by simp
  keyed := by simp
  key_plain := by simp; decide
  space_blank := by simp; decide
  space_some := by simp
  body_some := by simp
  body_spaced := ⟨by simp; decide, by simp; decide, by simp; decide, by simp; decide⟩
  body_free := commentFree_iff.mpr (by simp [Apart])
  remark_setOff := by simp [Remark.SetOff]; decide
  trailing_blank := by simp; decide

theorem ofLine?_text_spacious :
    spacious.text = " #define\tLW_X( i , j) \t(i + j) /*/ both **/ ".toList ∧
      ∃ written blanks, "(i + j) /*/ both **/ ".toList = written ++ blanks ∧ (∀ c ∈ blanks, isBlank c) ∧
        (∀ c ∈ written.getLast?, isBlank c = false) ∧
        Definition.ofLine? (String.ofList spacious.text) =
          some ("LW_X", { written := String.ofList written, value := "(i + j)", parameters := 2 }) :=
  ⟨by decide, ofLine?_text spacious⟩

end DefinitionLine
end RegisterCatalog
