import Mathlib.Data.List.Chain
import RegisterCatalog.Proofs.UnbrokenSymbols

/-! Words with single spaces between them. Joining the words of a text comes to the same as trimming it and writing each
run of blanks as one space. A text that is trimmed and has single spaces only stays as it is. -/

namespace RegisterCatalog.Chars

variable {text lead tail rest : List Char} {c d : Char}

/-- Each run of blanks before another character becomes one space. -/
def squeeze : List Char → List Char
  | [] => []
  | c :: rest =>
    if isBlank c then if rest.head?.any (!isBlank ·) then ' ' :: squeeze rest else squeeze rest
    else c :: squeeze rest

/-- The words of a text, set apart by single spaces. -/
def joinWords (text : List Char) : List Char := [' '].intercalate (words text)

theorem words_cons_blank (blank : isBlank c) (rest : List Char) : words (c :: rest) = words rest :=
  words_append [] rest blank

theorem words_eq_nil (blanks : ∀ c ∈ text, isBlank c) : words text = [] := by
  induction text with
  | nil => rfl
  | cons c rest ih =>
    rw [List.forall_mem_cons] at blanks
    rw [words_cons_blank blanks.1, ih blanks.2]

theorem words_blanks_append (blanks : ∀ c ∈ lead, isBlank c) (text : List Char) : words (lead ++ text) = words text := by
  induction lead with
  | nil => rfl
  | cons c rest ih =>
    rw [List.forall_mem_cons] at blanks
    rw [List.cons_append, words_cons_blank blanks.1, ih blanks.2]

theorem words_append_blanks (text : List Char) (blanks : ∀ c ∈ tail, isBlank c) : words (text ++ tail) = words text := by
  cases tail with
  | nil => rw [List.append_nil]
  | cons c rest =>
    rw [List.forall_mem_cons] at blanks
    rw [words_append text rest blanks.1, words_eq_nil blanks.2, List.append_nil]

/-- A letter at the end of a word is a word of its own. -/
theorem words_cons_ending (letter : isBlank c = false) (ends : ∀ d ∈ rest.head?, isBlank d) :
    words (c :: rest) = [c] :: words rest := by
  have single : words [c] = [[c]] := words_single (List.cons_ne_nil c []) (by simpa using letter)
  cases rest with
  | nil => exact single
  | cons d more =>
    have blank : isBlank d := ends d rfl
    rw [words_cons_blank blank, show c :: d :: more = [c] ++ d :: more from rfl, words_append [c] more blank, single,
      List.singleton_append]

theorem words_cons_letter (first : isBlank c = false) (second : isBlank d = false) (rest : List Char) :
    ∃ word later, words (d :: rest) = (d :: word) :: later ∧ words (c :: d :: rest) = (c :: d :: word) :: later := by
  cases cut : pieces isBlank rest with
  | nil => exact absurd cut (pieces_ne_nil isBlank rest)
  | cons word later =>
    exact ⟨word, later.filter fun piece => !piece.isEmpty, by simp [words, pieces, second, cut],
      by simp [words, pieces, first, second, cut]⟩

theorem squeeze_eq (text : List Char) :
    squeeze text = if text.head?.any isBlank ∧ words text ≠ [] then ' ' :: joinWords text else joinWords text := by
  unfold joinWords
  induction text with
  | nil => rfl
  | cons c rest ih =>
    cases first : isBlank c with
    | true =>
      rw [words_cons_blank first]
      cases rest with
      | nil => simp [squeeze, words, pieces, first]
      | cons d more =>
        cases second : isBlank d with
        | true => simpa [squeeze, first, second] using ih
        | false =>
          obtain ⟨word, later, cut, _⟩ := words_cons_letter second second more
          simpa [squeeze, first, second, cut] using ih
    | false =>
      cases rest with
      | nil => simp [squeeze, first, words, pieces]
      | cons d more =>
        cases second : isBlank d with
        | true =>
          rw [words_cons_ending first (by simpa using second)]
          cases cut : words (d :: more) with
          | nil => simpa [squeeze, first, second, cut] using ih
          | cons word later => simpa [squeeze, first, second, cut] using ih
        | false =>
          obtain ⟨word, later, cut, whole⟩ := words_cons_letter first second more
          rw [cut] at ih
          rw [whole]
          cases later with
          | nil => simpa [squeeze, first, second] using ih
          | cons next others => simpa [squeeze, first, second] using ih

/-! ### Trimming -/

theorem trimStart_spec (text : List Char) :
    (∃ lead, (∀ c ∈ lead, isBlank c) ∧ text = lead ++ trimStart text) ∧
      ∀ c ∈ (trimStart text).head?, isBlank c = false := by
  refine ⟨⟨text.takeWhile isBlank, fun c => List.mem_takeWhile_imp, List.takeWhile_append_dropWhile.symm⟩, ?_⟩
  intro c first
  have stopped := List.head?_dropWhile_not isBlank text
  rwa [← trimStart, Option.mem_def.mp first] at stopped

theorem trimEnd_spec (text : List Char) :
    (∃ tail, (∀ c ∈ tail, isBlank c) ∧ text = trimEnd text ++ tail) ∧
      ∀ c ∈ (trimEnd text).getLast?, isBlank c = false := by
  obtain ⟨⟨lead, blanks, whole⟩, letter⟩ := trimStart_spec text.reverse
  refine ⟨⟨lead.reverse, by simpa using blanks, ?_⟩, ?_⟩
  · rw [trimEnd, ← trimStart, ← List.reverse_append, ← whole, List.reverse_reverse]
  · rw [trimEnd, ← trimStart, List.getLast?_reverse]
    exact letter

theorem trimStart_blanks_append (blanks : ∀ c ∈ lead, isBlank c) (text : List Char) :
    trimStart (lead ++ text) = trimStart text :=
  List.dropWhile_append_of_pos blanks

theorem trimEnd_append_blanks (text : List Char) (blanks : ∀ c ∈ tail, isBlank c) :
    trimEnd (text ++ tail) = trimEnd text := by
  rw [trimEnd, List.reverse_append, List.dropWhile_append_of_pos (by simpa using blanks), ← trimEnd]

theorem trimStart_eq_self (letter : ∀ c ∈ text.head?, isBlank c = false) : trimStart text = text := by
  cases text with
  | nil => rfl
  | cons c rest => exact List.dropWhile_cons_of_neg (by simp [letter c rfl])

theorem trimEnd_eq_self (letter : ∀ c ∈ text.getLast?, isBlank c = false) : trimEnd text = text := by
  rw [trimEnd, ← trimStart, trimStart_eq_self (by simpa using letter), List.reverse_reverse]

theorem trimEnd_append (letter : ∀ c ∈ text.getLast?, isBlank c = false) (rest : List Char) :
    trimEnd (text ++ rest) = text ++ trimEnd rest := by
  obtain ⟨⟨tail, blanks, whole⟩, last⟩ := trimEnd_spec rest
  have ended : ∀ c ∈ (text ++ trimEnd rest).getLast?, isBlank c = false := by
    intro c member
    rw [List.getLast?_append] at member
    rcases Option.or_eq_some_iff.mp member with behind | ⟨_, before⟩
    · exact last c behind
    · exact letter c before
  calc trimEnd (text ++ rest)
    _ = trimEnd (text ++ trimEnd rest ++ tail) := by rw [List.append_assoc, ← whole]
    _ = text ++ trimEnd rest := by rw [trimEnd_append_blanks _ blanks, trimEnd_eq_self ended]

theorem exists_trim (text : List Char) : ∃ lead tail, (∀ c ∈ lead, isBlank c) ∧ (∀ c ∈ tail, isBlank c) ∧
    text = lead ++ (trim text ++ tail) := by
  obtain ⟨lead, before, front⟩ := (trimStart_spec text).1
  obtain ⟨tail, after, back⟩ := (trimEnd_spec (trimStart text)).1
  exact ⟨lead, tail, before, after, by rw [trim, ← back, ← front]⟩

theorem words_trim (text : List Char) : words (trim text) = words text := by
  obtain ⟨lead, tail, before, after, whole⟩ := exists_trim text
  calc words (trim text)
    _ = words (lead ++ (trim text ++ tail)) := by rw [words_blanks_append before, words_append_blanks _ after]
    _ = words text := by rw [← whole]

theorem head?_trim (text : List Char) : ∀ c ∈ (trim text).head?, isBlank c = false := by
  obtain ⟨tail, _, back⟩ := (trimEnd_spec (trimStart text)).1
  intro c first
  apply (trimStart_spec text).2 c
  rw [back, ← trim, List.head?_append, Option.mem_def.mp first]
  rfl

theorem joinWords_eq_squeeze_trim (text : List Char) : joinWords text = squeeze (trim text) := by
  have letter : ¬ (trim text).head?.any isBlank := by
    rw [Option.any_eq_true]
    rintro ⟨c, first, blank⟩
    rw [head?_trim text c first] at blank
    cases blank
  rw [squeeze_eq, if_neg (fun both => letter both.1), joinWords, joinWords, words_trim]

theorem words_joinWords (text : List Char) : words (joinWords text) = words text := by
  have joined (parts : List (List Char)) (each : ∀ part ∈ parts, part ≠ [] ∧ ∀ c ∈ part, isBlank c = false) :
      words ([' '].intercalate parts) = parts := by
    induction parts with
    | nil => rfl
    | cons part rest ih =>
      rw [List.forall_mem_cons] at each
      have single := words_single each.1.1 each.1.2
      cases rest with
      | nil => rwa [List.intercalate_singleton]
      | cons next later =>
        rw [List.intercalate_cons_cons, List.append_assoc, List.singleton_append, words_append _ _ (by decide), single,
          ih each.2, List.singleton_append]
  apply joined
  intro part member
  exact ⟨mem_words member, unbroken_of_mem_pieces (List.mem_filter.mp member).1⟩

/-! ### Single spaces -/

/-- A trimmed text whose blanks are single spaces. -/
structure SingleSpaced (text : List Char) : Prop where
  start : ∀ c ∈ text.head?, isBlank c = false
  stop : ∀ c ∈ text.getLast?, isBlank c = false
  spaces : ∀ c ∈ text, isBlank c → c = ' '
  single : text.IsChain fun c d => isBlank c → isBlank d = false

theorem squeeze_eq_self (spaces : ∀ c ∈ text, isBlank c → c = ' ') (stop : ∀ c ∈ text.getLast?, isBlank c = false)
    (single : text.IsChain fun c d => isBlank c → isBlank d = false) : squeeze text = text := by
  induction text with
  | nil => rfl
  | cons c rest ih =>
    rw [List.forall_mem_cons] at spaces
    rw [List.isChain_cons] at single
    have later : squeeze rest = rest := by
      apply ih spaces.2 _ single.2
      intro d last
      exact stop d (by rw [List.getLast?_cons, Option.mem_def.mp last]; rfl)
    cases blank : isBlank c with
    | false => rw [squeeze, blank, later]; rfl
    | true =>
      cases rest with
      | nil => exact absurd (stop c rfl) (by simp [blank])
      | cons d more =>
        have letter : isBlank d = false := single.1 d rfl blank
        rw [squeeze, later, ← spaces.1 blank]
        simp [blank, letter]

theorem head?_squeeze (text : List Char) :
    ∀ d ∈ (squeeze text).head?, d = ' ' ∨ d ∈ text.head? ∧ isBlank d = false := by
  induction text with
  | nil => rintro d ⟨⟩
  | cons c rest ih =>
    intro d first
    rw [squeeze] at first
    split at first
    next =>
      split at first
      next => exact .inl (Option.mem_some.mp first).symm
      next ends =>
        rcases ih d first with space | ⟨next, letter⟩
        · exact .inl space
        · exact absurd ((Option.any_eq_true _ _).mpr ⟨d, next, by simpa using letter⟩) ends
    next letter =>
      cases Option.mem_some.mp first
      exact .inr ⟨rfl, Bool.eq_false_iff.mpr letter⟩

/-- What stands beside a character of a squeezed text stood there before, or is a space. -/
theorem isChain_squeeze {related : Char → Char → Prop} (before : ∀ c, related c ' ') (behind : ∀ c, related ' ' c)
    (chain : text.IsChain related) : (squeeze text).IsChain related := by
  induction text with
  | nil => exact chain
  | cons c rest ih =>
    rw [List.isChain_cons] at chain
    have later := ih chain.2
    rw [squeeze]
    split
    · split
      · exact List.isChain_cons.mpr ⟨fun d _ => behind d, later⟩
      · exact later
    · refine List.isChain_cons.mpr ⟨?_, later⟩
      intro d first
      rcases head?_squeeze rest d first with rfl | ⟨next, _⟩
      · exact before c
      · exact chain.1 d next

end RegisterCatalog.Chars
