import RegisterCatalog.Header.Definition
import RegisterCatalog.Proofs.Occurrences
import RegisterCatalog.Proofs.SingleSpaces

/-! What is left of a text without its comments. Reading the text once, with what was just seen in mind, and searching
it for openers and closers give the same. No comment opens in what is left, not even where the texts around a comment
meet, because a slash before an opener would itself open a comment. -/

namespace RegisterCatalog.Chars

def blockOpener : List Char := ['/', '*']

def blockCloser : List Char := ['*', '/']

def lineOpener : List Char := ['/', '/']

variable {text code inside rest : List Char}

structure CommentFree (text : List Char) : Prop where
  block : ¬ blockOpener <:+: text
  line : ¬ lineOpener <:+: text

/-- The second character does not make an opener of the first. -/
def Apart (c d : Char) : Prop := c = '/' → d ≠ '*' ∧ d ≠ '/'

theorem commentFree_iff : CommentFree text ↔ text.IsChain Apart := by
  rw [List.isChain_iff_forall_rel_of_append_cons_cons]
  constructor
  · rintro free c d before after whole rfl
    refine ⟨?_, ?_⟩ <;> rintro rfl
    · exact free.block ⟨before, after, by rw [whole]; simp [blockOpener]⟩
    · exact free.line ⟨before, after, by rw [whole]; simp [lineOpener]⟩
  · intro apart
    refine ⟨?_, ?_⟩ <;> rintro ⟨before, after, whole⟩
    · exact (@apart '/' '*' before after (by rw [← whole]; simp [blockOpener]) rfl).1 rfl
    · exact (@apart '/' '/' before after (by rw [← whole]; simp [lineOpener]) rfl).2 rfl

theorem dropComments_append (free : CommentFree (code ++ rest.take 1)) :
    dropComments .code (code ++ rest) = code ++ dropComments .code rest := by
  rw [commentFree_iff] at free
  induction code with
  | nil => rfl
  | cons c code ih =>
    rw [List.cons_append, List.isChain_cons] at free
    obtain ⟨apart, free⟩ := free
    have next : (code ++ rest.take 1).head? = (code ++ rest).head? := by
      cases code <;> cases rest <;> rfl
    rw [next] at apart
    rw [List.cons_append, dropComments, ih free, List.cons_append]
    · intro others slash same
      exact (apart '*' (by rw [same]; rfl) slash).1 rfl
    · intro others slash same
      exact (apart '/' (by rw [same]; rfl) slash).2 rfl

theorem dropComments_of_commentFree (free : CommentFree text) : dropComments .code text = text := by
  have whole := dropComments_append (show CommentFree (text ++ List.take 1 []) by simpa using free)
  rwa [List.append_nil, dropComments, List.append_nil] at whole

theorem dropComments_block (inside : List Char) :
    dropComments .block inside = match splitOnce blockCloser inside with
      | some (_, rest) => dropComments .code rest
      | none => [] := by
  induction inside with
  | nil => rfl
  | cons c rest ih =>
    by_cases closes : blockCloser <+: c :: rest
    · obtain ⟨after, same⟩ := closes
      cases same
      rfl
    · have other : blockCloser.isPrefixOf? (c :: rest) = none := by
        apply Option.eq_none_iff_forall_ne_some.mpr
        intro after found
        exact closes ⟨after, List.isPrefixOf?_eq_some_iff_append_eq.mp found⟩
      rw [dropComments, ih, splitOnce, other]
      · cases splitOnce blockCloser rest <;> rfl
      · rintro others rfl rfl
        exact closes ⟨others, rfl⟩

/-! ### Searching -/

/-- The separator does not occur before the end of `code` in a text that starts with it. -/
def NotBefore (separator code text : List Char) : Prop :=
  ∀ before after, text = before ++ separator ++ after → code.length ≤ before.length

theorem NotBefore.mono {separator shorter : List Char} (notBefore : NotBefore separator code text)
    (less : shorter.length ≤ code.length) : NotBefore separator shorter text :=
  fun before after same => Nat.le_trans less (notBefore before after same)

theorem not_infix_of_splitOnce {separator : List Char} (absent : splitOnce separator text = none) : ¬ separator <:+: text := by
  rw [← contains_iff, contains, absent]
  exact Bool.false_ne_true

theorem notBefore_of_splitOnce {separator : List Char} (absent : splitOnce separator text = none) (code : List Char) :
    NotBefore separator code text :=
  fun before after same => absurd ⟨before, after, same.symm⟩ (not_infix_of_splitOnce absent)

theorem NotBefore.not_within {c d e : Char} (notBefore : NotBefore [c, d] code (code ++ e :: rest)) :
    ¬ [c, d] <:+: code ++ [e] := by
  rintro ⟨before, after, whole⟩
  have later := notBefore before (after ++ rest) (by rw [← List.append_assoc, whole]; simp)
  have lengths := congrArg List.length whole
  simp only [List.length_append, List.length_cons, List.length_nil] at lengths
  omega

inductive Opening
  | block (code inside : List Char)
  | line (code : List Char)

def opening? (text : List Char) : Option Opening :=
  match splitOnce blockOpener text, splitOnce lineOpener text with
  | some (code, inside), none => some (.block code inside)
  | some (code, inside), some (earlier, _) =>
    some (if code.length < earlier.length then .block code inside else .line earlier)
  | none, some (code, _) => some (.line code)
  | none, none => none

/-- What opens first has code before it in which nothing opens, also not with its slash. -/
theorem opening?_spec (text : List Char) :
    match opening? text with
    | none => CommentFree text
    | some (.block code inside) => text = code ++ '/' :: '*' :: inside ∧ CommentFree (code ++ ['/'])
    | some (.line code) => ∃ remark, text = code ++ '/' :: '/' :: remark ∧ CommentFree (code ++ ['/']) := by
  have free {before rest : List Char} (same : text = before ++ '/' :: rest) (block : NotBefore blockOpener before text)
      (line : NotBefore lineOpener before text) : CommentFree (before ++ ['/']) := by
    subst same
    exact ⟨block.not_within, line.not_within⟩
  unfold opening?
  cases block : splitOnce blockOpener text with
  | none =>
    have noBlock := notBefore_of_splitOnce block
    cases line : splitOnce lineOpener text with
    | none => exact ⟨not_infix_of_splitOnce block, not_infix_of_splitOnce line⟩
    | some lineCut =>
      obtain ⟨whole, first⟩ := splitOnce_eq_some.mp line
      have split : text = lineCut.1 ++ '/' :: '/' :: lineCut.2 := by simpa [lineOpener] using whole
      exact ⟨lineCut.2, split, free split (noBlock _) first⟩
  | some blockCut =>
    obtain ⟨whole, first⟩ := splitOnce_eq_some.mp block
    have split : text = blockCut.1 ++ '/' :: '*' :: blockCut.2 := by simpa [blockOpener] using whole
    cases line : splitOnce lineOpener text with
    | none => exact ⟨split, free split first (notBefore_of_splitOnce line _)⟩
    | some lineCut =>
      obtain ⟨wholeLine, firstLine⟩ := splitOnce_eq_some.mp line
      have splitLine : text = lineCut.1 ++ '/' :: '/' :: lineCut.2 := by simpa [lineOpener] using wholeLine
      dsimp only
      by_cases sooner : blockCut.1.length < lineCut.1.length
      · rw [if_pos sooner]
        exact ⟨split, free split first (NotBefore.mono firstLine sooner.le)⟩
      · rw [if_neg sooner]
        exact ⟨lineCut.2, splitLine, free splitLine (NotBefore.mono first (Nat.le_of_not_lt sooner)) firstLine⟩

theorem length_lt_of_opening? (opened : opening? text = some (.block code inside)) : inside.length < text.length := by
  have spec := opening?_spec text
  rw [opened] at spec
  rw [spec.1, List.length_append, List.length_cons, List.length_cons]
  omega

/-- Drops comments by searching: for the opener that comes first and, behind that of a block, for its closer. -/
def searchComments (text : List Char) : List Char :=
  match _ : opening? text with
  | none => text
  | some (.line code) => code
  | some (.block code inside) =>
    match _ : splitOnce blockCloser inside with
    | none => code
    | some (_, rest) => code ++ searchComments rest
termination_by text.length
decreasing_by
  have inner := length_lt_of_opening? ‹_›
  rw [(splitOnce_eq_some.mp ‹splitOnce blockCloser inside = _›).1] at inner
  simp only [List.length_append] at inner
  omega

theorem dropComments_eq_searchComments (text : List Char) : dropComments .code text = searchComments text := by
  fun_induction searchComments text with
  | case1 text opened =>
    have spec := opening?_spec text
    rw [opened] at spec
    exact dropComments_of_commentFree spec
  | case2 text code opened =>
    have spec := opening?_spec text
    rw [opened] at spec
    obtain ⟨remark, rfl, free⟩ := spec
    rw [dropComments_append free]
    simp [dropComments]
  | case3 text code inside opened closed =>
    have spec := opening?_spec text
    rw [opened] at spec
    obtain ⟨rfl, free⟩ := spec
    rw [dropComments_append free]
    simp [dropComments, dropComments_block, closed]
  | case4 text code inside opened remark rest closed ih =>
    have spec := opening?_spec text
    rw [opened] at spec
    obtain ⟨rfl, free⟩ := spec
    rw [dropComments_append free, ← ih]
    simp [dropComments, dropComments_block, closed]

/-! ### Reading character by character -/

/-- What is known of the text before a character. -/
inductive CommentScan
  | code
  /-- The last character of the code was a slash, which is held back. -/
  | slash
  | block
  /-- The last character of the block was a star. -/
  | star
  | line
  deriving DecidableEq

namespace CommentScan

/-- The state after a character, and what is known to be code by then. -/
def step (c : Char) : CommentScan → CommentScan × List Char
  | .code => if c = '/' then (.slash, []) else (.code, [c])
  | .slash => if c = '*' then (.block, []) else if c = '/' then (.line, []) else (.code, ['/', c])
  | .block => (if c = '*' then .star else .block, [])
  | .star => (if c = '/' then .code else if c = '*' then .star else .block, [])
  | .line => (.line, [])

/-- A slash at the end of the text is code. -/
def scan : CommentScan → List Char → List Char
  | .slash, [] => ['/']
  | _, [] => []
  | state, c :: rest => (state.step c).2 ++ (state.step c).1.scan rest

/-- What is left of a text behind what has been seen. -/
def remaining (text : List Char) : CommentScan → List Char
  | .code => dropComments .code text
  | .slash => dropComments .code ('/' :: text)
  | .block => dropComments .block text
  | .star => dropComments .block ('*' :: text)
  | .line => []

theorem remaining_cons (state : CommentScan) (c : Char) (rest : List Char) :
    state.remaining (c :: rest) = (state.step c).2 ++ (state.step c).1.remaining rest := by
  cases state with
  | code =>
    by_cases slash : c = '/'
    · simp [remaining, step, slash]
    · simp [remaining, step, slash, dropComments]
  | slash =>
    by_cases star : c = '*'
    · simp [remaining, step, star, dropComments]
    · by_cases slash : c = '/'
      · simp [remaining, step, slash, dropComments]
      · simp [remaining, step, slash, star, dropComments]
  | block =>
    by_cases star : c = '*'
    · simp [remaining, step, star]
    · simp [remaining, step, star, dropComments]
  | star =>
    by_cases slash : c = '/'
    · simp [remaining, step, slash, dropComments]
    · by_cases star : c = '*'
      · simp [remaining, step, star, dropComments]
      · simp [remaining, step, slash, star, dropComments]
  | line => rfl

theorem scan_eq_remaining (state : CommentScan) (text : List Char) : state.scan text = state.remaining text := by
  induction text generalizing state with
  | nil => cases state <;> rfl
  | cons c rest ih => rw [scan, ih, remaining_cons]

end CommentScan
/-! ### What is left -/

theorem isChain_dropComments (state : CommentState) (text : List Char) : (dropComments state text).IsChain Apart := by
  fun_induction dropComments state text with
  | case1 => exact .nil
  | case2 rest ih => exact ih
  | case3 rest => exact .nil
  | case4 c rest notBlock notLine ih =>
    refine List.isChain_cons.mpr ⟨?_, ih⟩
    rintro d first rfl
    cases rest with
    | nil => cases first
    | cons e more =>
      have star : e ≠ '*' := fun same => notBlock more rfl (by rw [same])
      have slash : e ≠ '/' := fun same => notLine more rfl (by rw [same])
      have same : e = d := by simpa [dropComments, slash] using first
      exact same ▸ ⟨star, slash⟩
  | case5 rest ih => exact ih
  | case6 c rest _ ih => exact ih

theorem commentFree_cleanBody (body : List Char) : CommentFree (cleanBody body) := by
  obtain ⟨lead, tail, _, _, whole⟩ := exists_trim (dropComments .code body)
  have chain := isChain_dropComments .code body
  rw [whole] at chain
  rw [commentFree_iff, cleanBody, ← joinWords, joinWords_eq_squeeze_trim]
  apply isChain_squeeze _ _ chain.right_of_append.left_of_append
  · intro c _
    decide
  · rintro c ⟨⟩

/-- The body of a definition is cleaned of its comments as they are found by reading it character by character or by
searching, and then of blanks that stand at its ends or behind others. No comment opens in what is left, so cleaning
it again changes nothing. -/
theorem cleanBody_drops_comments (body : List Char) :
    cleanBody body = squeeze (trim (CommentScan.code.scan body)) ∧
    cleanBody body = squeeze (trim (searchComments body)) ∧
    ¬ blockOpener <:+: cleanBody body ∧ ¬ lineOpener <:+: cleanBody body ∧
    cleanBody (cleanBody body) = cleanBody body := by
  have free := commentFree_cleanBody body
  have cleaned : cleanBody body = squeeze (trim (dropComments .code body)) := joinWords_eq_squeeze_trim _
  refine ⟨?_, ?_, free.block, free.line, ?_⟩
  · rw [CommentScan.scan_eq_remaining, cleaned]
    rfl
  · rw [← dropComments_eq_searchComments, cleaned]
  · calc cleanBody (cleanBody body)
      _ = joinWords (cleanBody body) := by rw [cleanBody, dropComments_of_commentFree free, joinWords]
      _ = cleanBody body := by rw [cleanBody, ← joinWords, joinWords, words_joinWords, joinWords]

example : cleanBody "a/*/*//b  // c".toList = "a/b".toList := by decide +kernel

end RegisterCatalog.Chars
