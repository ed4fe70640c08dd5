import RegisterCatalog.Text.HashComment

/-! Code and comment of a line. Escaped code is read back as it was, and a comment behind it falls away, unless the code
ends with a backslash: that one would escape the mark. Every line is written in one of these two ways. -/

namespace RegisterCatalog.Chars

variable {code line rest : List Char}

theorem stripComment_cons {c : Char} (plain : c ≠ '#') (apart : c = '\\' → rest.head? ≠ some '#') :
    stripComment (c :: rest) = c :: stripComment rest := by
  rw [stripComment]
  · rintro others rfl rfl
    exact apart rfl rfl
  · exact plain

theorem escapeComment_mark (code : List Char) : escapeComment ('#' :: code) = '\\' :: '#' :: escapeComment code := rfl

theorem escapeComment_cons {c : Char} (plain : c ≠ '#') (code : List Char) :
    escapeComment (c :: code) = c :: escapeComment code := by
  rw [escapeComment, if_neg (by simpa using plain)]

/-- Escaped code never starts with a mark, so a backslash before it stays a backslash. -/
theorem head?_escapeComment_append (nonempty : code ≠ []) (rest : List Char) :
    (escapeComment code ++ rest).head? ≠ some '#' := by
  cases code with
  | nil => exact absurd rfl nonempty
  | cons c code =>
    by_cases mark : c = '#'
    · subst mark
      simp [escapeComment_mark]
    · simpa [escapeComment_cons mark] using mark

def Closed (code : List Char) : Prop := code.getLast? ≠ some '\\'

theorem closed_nil : Closed [] := nofun

theorem Closed.tail {c : Char} (nonempty : code ≠ []) (closed : Closed (c :: code)) : Closed code := by
  obtain ⟨d, others, rfl⟩ := List.exists_cons_of_ne_nil nonempty
  rwa [Closed, List.getLast?_cons_cons] at closed

theorem Closed.cons {c : Char} (own : code = [] → c ≠ '\\') (closed : Closed code) : Closed (c :: code) := by
  cases code with
  | nil => simpa [Closed] using own rfl
  | cons d others => rwa [Closed, List.getLast?_cons_cons]

theorem stripComment_escape_append (closed : rest.head? = some '#' → Closed code) :
    stripComment (escapeComment code ++ rest) = code ++ stripComment rest := by
  induction code with
  | nil => rfl
  | cons c code ih =>
    have inner : rest.head? = some '#' → Closed code := by
      intro mark
      by_cases empty : code = []
      · rw [empty]
        exact closed_nil
      · exact (closed mark).tail empty
    by_cases mark : c = '#'
    · subst mark
      rw [escapeComment_mark, List.cons_append, List.cons_append, stripComment, ih inner, List.cons_append]
    · rw [escapeComment_cons mark, List.cons_append, stripComment_cons mark, ih inner, List.cons_append]
      rintro rfl
      by_cases empty : code = []
      · subst empty
        exact fun next => closed next rfl
      · exact head?_escapeComment_append empty rest

theorem stripComment_escape (code : List Char) : stripComment (escapeComment code) = code := by
  have whole := stripComment_escape_append (show [].head? = some '#' → Closed code from nofun)
  rwa [List.append_nil, stripComment, List.append_nil] at whole

theorem stripComment_comment (closed : Closed code) (comment : List Char) :
    stripComment (escapeComment code ++ '#' :: comment) = code := by
  rw [stripComment_escape_append fun _ => closed, stripComment, List.append_nil]

theorem written_of_stripComment (line : List Char) :
    line = escapeComment (stripComment line) ∨
      Closed (stripComment line) ∧ ∃ comment, line = escapeComment (stripComment line) ++ '#' :: comment := by
  fun_induction stripComment line with
  | case1 => exact .inl rfl
  | case2 rest ih =>
    rw [escapeComment_mark]
    rcases ih with alone | ⟨closed, comment, whole⟩
    · exact .inl (by rw [← alone])
    · exact .inr ⟨closed.cons fun _ => by decide, comment, by rw [List.cons_append, List.cons_append, ← whole]⟩
  | case3 comment => exact .inr ⟨closed_nil, comment, rfl⟩
  | case4 c rest escaping plain ih =>
    rw [escapeComment_cons plain]
    rcases ih with alone | ⟨closed, comment, whole⟩
    · exact .inl (by rw [← alone])
    · refine .inr ⟨closed.cons ?_, comment, by rw [List.cons_append, ← whole]⟩
      intro empty backslash
      rw [empty] at whole
      exact escaping comment backslash whole

/-- A line has this code exactly if it is the code escaped, alone or before a comment. -/
theorem stripComment_eq_iff : stripComment line = code ↔
    line = escapeComment code ∨ Closed code ∧ ∃ comment, line = escapeComment code ++ '#' :: comment := by
  constructor
  · rintro rfl
    exact written_of_stripComment line
  · rintro (rfl | ⟨closed, comment, rfl⟩)
    · exact stripComment_escape code
    · exact stripComment_comment closed comment

end RegisterCatalog.Chars

namespace RegisterCatalog.Text

theorem stripComment_eq_iff {line code : String} : stripComment line = code ↔
    line = escapeComment code ∨
      code.toList.getLast? ≠ some '\\' ∧ ∃ comment, line = escapeComment code ++ "#" ++ comment := by
  have alone : line = escapeComment code ↔ line.toList = Chars.escapeComment code.toList := by
    rw [← String.toList_inj, escapeComment, String.toList_ofList]
  have before : (∃ comment, line = escapeComment code ++ "#" ++ comment) ↔
      ∃ comment, line.toList = Chars.escapeComment code.toList ++ '#' :: comment := by
    constructor
    · rintro ⟨comment, rfl⟩
      exact ⟨comment.toList, by simp [escapeComment]⟩
    · rintro ⟨comment, whole⟩
      exact ⟨String.ofList comment, String.toList_inj.mp (by simp [escapeComment, whole])⟩
  rw [← String.toList_inj, stripComment, String.toList_ofList, Chars.stripComment_eq_iff, alone, before, Chars.Closed]

/-- Escaped code is read back, also before a comment if it does not end with a backslash, and there are no other lines
than these. -/
theorem comments_stand_behind_escaped_code :
    (∀ code, stripComment (escapeComment code) = code) ∧
    (∀ code comment, code.toList.getLast? ≠ some '\\' → stripComment (escapeComment code ++ "#" ++ comment) = code) ∧
    ∀ line, line = escapeComment (stripComment line) ∨
      (stripComment line).toList.getLast? ≠ some '\\' ∧
        ∃ comment, line = escapeComment (stripComment line) ++ "#" ++ comment :=
  ⟨fun _ => stripComment_eq_iff.mpr (.inl rfl),
    fun _ comment closed => stripComment_eq_iff.mpr (.inr ⟨closed, comment, rfl⟩),
    fun _ => stripComment_eq_iff.mp rfl⟩

theorem comments_stand_behind_escaped_code_backslashes :
    "A\\\\#=B".toList.getLast? ≠ some '\\' ∧ escapeComment "A\\\\#=B" = "A\\\\\\#=B" ∧
    stripComment (escapeComment "A\\\\#=B" ++ "#" ++ " note \\# more") = "A\\\\#=B" ∧
    stripComment (escapeComment "A\\" ++ "#" ++ " note") = "A# note" := by
  have closed : "A\\\\#=B".toList.getLast? ≠ some '\\' := by decide
  exact ⟨closed, by decide, comments_stand_behind_escaped_code.2.1 _ _ closed, by decide⟩

end RegisterCatalog.Text
