import RegisterCatalog.Files.Path
import RegisterCatalog.Proofs.UnbrokenSymbols

/-! The last name of a path, and the path with another name in its place. A path without idle slashes and dots is put
together from its pieces as it was written. So files whose paths differ in their endings only are found beside
each other. -/

namespace RegisterCatalog.Path

theorem pieces_slashless {path : String} (slashless : '/' ∉ path.toList) : pieces path = [path] := by
  have unbroken : ∀ c ∈ path.toList, (c == '/') = false := by
    intro c member
    exact beq_eq_false_iff_ne.mpr fun slash => slashless (slash ▸ member)
  rw [pieces, Chars.pieces_eq_splitOnP, List.splitOnP_eq_singleton unbroken, List.map_singleton, String.ofList_toList]

theorem pieces_below (above last : String) : pieces (above ++ "/" ++ last) = pieces above ++ pieces last := by
  have chars : (above ++ "/" ++ last).toList = above.toList ++ '/' :: last.toList := by simp
  simp only [pieces, Chars.pieces_eq_splitOnP, chars]
  rw [List.splitOnP_append_cons above.toList last.toList (by decide), List.map_append]

theorem pieces_ne_nil (path : String) : pieces path ≠ [] := by
  simpa [pieces] using Chars.pieces_ne_nil _ path.toList

theorem slashless_or_below (path : String) :
    '/' ∉ path.toList ∨ ∃ above last, '/' ∉ last.toList ∧ path = above ++ "/" ++ last := by
  by_cases slash : '/' ∈ path.toList
  · obtain ⟨last, above, cut, slashless⟩ := List.eq_append_cons_of_mem (List.mem_reverse.mpr slash)
    refine .inr ⟨.ofList above.reverse, .ofList last.reverse, by simpa using slashless, ?_⟩
    rw [← String.toList_inj, ← List.reverse_inj, cut]
    simp
  · exact .inl slash

theorem ofPieces_pieces {path : String} (nonempty : path ≠ "") : ofPieces (pieces path) = path := by
  have joined : String.intercalate "/" (pieces path) = path := by
    rw [← String.toList_inj, String.toList_intercalate, pieces, Chars.pieces_eq_splitOnP, List.map_map]
    have same : String.toList ∘ String.ofList = id := funext fun _ => String.toList_ofList
    rw [same, List.map_id]
    exact List.intercalate_splitOn '/'
  unfold ofPieces
  split
  next single =>
    rw [single] at joined
    exact absurd joined.symm nonempty
  · exact joined

/-- No piece but the first is empty or a dot. -/
def Plain (path : String) : Prop := ∀ piece ∈ (pieces path).tail, isFiller piece = false

instance (path : String) : Decidable (Plain path) := inferInstanceAs (Decidable (∀ _ ∈ _, _))

theorem Plain.above {above last : String} (plain : Plain (above ++ "/" ++ last)) : Plain above := by
  intro piece member
  apply plain
  rw [pieces_below, List.tail_append_of_ne_nil (pieces_ne_nil above)]
  exact List.mem_append_left _ member

theorem Plain.getLast?_ne_slash {path : String} (plain : Plain path) : path.toList.getLast? ≠ some '/' := by
  intro slash
  obtain ⟨front, cut⟩ := List.getLast?_eq_some_iff.mp slash
  have path_eq : path = .ofList front ++ "/" ++ "" := by
    rw [← String.toList_inj, cut]
    simp
  have filler : isFiller "" = false := by
    apply plain
    rw [path_eq, pieces_below, List.tail_append_of_ne_nil (pieces_ne_nil _)]
    exact List.mem_append_right _ List.mem_cons_self
  cases filler

theorem join_of_slashless {right : String} (left : String) (slashless : '/' ∉ right.toList) :
    join left right = if left.isEmpty || left.toList.getLast? == some '/' then left ++ right else left ++ "/" ++ right := by
  have relative : ¬ right.toList.head? == some '/' := by
    intro absolute
    exact slashless (List.mem_of_head? (beq_iff_eq.mp absolute))
  rw [join, if_neg relative]

theorem join_append {name : String} (directory ending : String) (nonempty : name ≠ "") :
    join directory (name ++ ending) = join directory name ++ ending := by
  have start : (name ++ ending).toList.head? = name.toList.head? := by
    rw [String.toList_append, List.head?_append_of_ne_nil _ (by simpa using nonempty)]
  unfold join
  rw [start]
  split
  · rfl
  · split <;> simp only [String.append_assoc]

theorem join_ofPieces {above last : String} (plain : Plain above) (slashless : '/' ∉ last.toList) :
    join (ofPieces (pieces above)) last = above ++ "/" ++ last := by
  rw [join_of_slashless _ slashless]
  by_cases empty : above = ""
  · rw [empty]
    rfl
  · rw [ofPieces_pieces empty, if_neg]
    simp [empty, plain.getLast?_ne_slash]

/-- A name of a file: it has no slash in it, and not only dots. -/
def IsName (name : String) : Prop := '/' ∉ name.toList ∧ ∃ c ∈ name.toList, c ≠ '.'

theorem IsName.append {name ending : String} (isName : IsName ending) (slashless : '/' ∉ name.toList) :
    IsName (name ++ ending) := by
  obtain ⟨whole, c, member, notDot⟩ := isName
  refine ⟨?_, c, ?_, notDot⟩ <;> simp [slashless, whole, member]

theorem IsName.ne_dots {name : String} (isName : IsName name) : isFiller name = false ∧ name ≠ "." ∧ name ≠ ".." := by
  have ne : ∀ other : String, (∀ c ∈ other.toList, c = '.') → name ≠ other := by
    rintro other dots rfl
    obtain ⟨_, c, member, notDot⟩ := isName
    exact notDot (dots c member)
  have dot : name ≠ "." := ne "." (by simp)
  exact ⟨by simp [isFiller, ne "" (by simp), dot], dot, ne ".." (by simp)⟩

theorem split?_of_isName {path : String} (isName : IsName path) : split? path = some ("", path) := by
  have nonempty : path ≠ "" := by
    rintro rfl
    obtain ⟨_, c, member, _⟩ := isName
    cases member
  simp [split?, pieces_slashless isName.1, nonempty]

theorem split?_below {above last : String} (plain : Plain above) (isName : IsName last) :
    split? (above ++ "/" ++ last) = some (ofPieces (pieces above), last) := by
  unfold Plain at plain
  rw [split?, pieces_below, pieces_slashless isName.1]
  cases parts : pieces above with
  | nil => exact absurd parts (pieces_ne_nil above)
  | cons first rest =>
    rw [parts] at plain
    have kept : rest.reverse.dropWhile isFiller = rest.reverse := by
      rw [List.dropWhile_eq_self_iff]
      intro nonempty
      rw [Bool.not_eq_true]
      exact plain _ (List.mem_reverse.mp (List.getElem_mem nonempty))
    simp [isName.ne_dots.1, kept]

theorem fileName?_of_split? {path above last : String} (cut : split? path = some (above, last)) (isName : IsName last) :
    fileName? path = some last ∧ ∀ name, withFileName path name = join above name := by
  obtain ⟨_, dot, dots⟩ := isName.ne_dots
  constructor
  · simp [fileName?, cut, dot, dots]
  · intro name
    simp [withFileName, cut, dot, dots]

/-- The last name of a plain path can be given another ending without changing the directory. -/
theorem Plain.exists_name {stem given : String} (plain : Plain (stem ++ given)) :
    ∃ name, ∀ ending, IsName ending → fileName? (stem ++ ending) = some (name ++ ending) ∧
      ∀ other, IsName other → withFileName (stem ++ ending) (name ++ other) = stem ++ other := by
  rcases slashless_or_below stem with slashless | ⟨above, last, slashless, rfl⟩
  · refine ⟨stem, fun ending isEnding => ?_⟩
    have isName := isEnding.append slashless
    obtain ⟨named, renamed⟩ := fileName?_of_split? (split?_of_isName isName) isName
    refine ⟨named, fun other isOther => ?_⟩
    rw [renamed, join_of_slashless _ (isOther.append slashless).1]
    simp
  · refine ⟨last, fun ending isEnding => ?_⟩
    have isName := isEnding.append slashless
    have plain : Plain above := by
      rw [String.append_assoc] at plain
      exact plain.above
    obtain ⟨named, renamed⟩ := fileName?_of_split? (split?_below plain isName) isName
    rw [String.append_assoc]
    refine ⟨named, fun other isOther => ?_⟩
    rw [renamed, join_ofPieces plain (isOther.append slashless).1, ← String.append_assoc]

end RegisterCatalog.Path
