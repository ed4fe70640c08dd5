import Mathlib.Algebra.Group.Nat.Defs
import Mathlib.Data.List.Forall2
import RegisterCatalog.Resolution.Indexing

/-! The index tuples of an array: each tuple below the limits, once, in lexicographic order. A dimension added at the
end runs fastest. -/

namespace RegisterCatalog

theorem mem_indexTuples {limits tuple : List Nat} :
    tuple ∈ indexTuples limits ↔ List.Forall₂ (· < ·) tuple limits := by
  induction limits generalizing tuple with
  | nil => simp [indexTuples]
  | cons limit rest ih =>
    simp only [indexTuples, List.mem_flatMap, List.mem_range, List.mem_map]
    constructor
    · intro extended
      obtain ⟨index, below, others, member, rfl⟩ := extended
      exact .cons below (ih.mp member)
    · intro related
      cases related with
      | cons below others => exact ⟨_, below, _, ih.mpr others, rfl⟩

theorem indexTuples_sorted (limits : List Nat) : (indexTuples limits).Pairwise (List.Lex (· < ·)) := by
  induction limits with
  | nil => simp [indexTuples]
  | cons limit rest ih =>
    rw [indexTuples, List.pairwise_flatMap]
    constructor
    · intro index _
      rw [List.pairwise_map]
      exact ih.imp fun smaller => .cons smaller
    · apply List.pairwise_lt_range.imp
      intro first second smaller left inFirst right inSecond
      obtain ⟨_, _, rfl⟩ := List.mem_map.mp inFirst
      obtain ⟨_, _, rfl⟩ := List.mem_map.mp inSecond
      exact .rel smaller

theorem indexTuples_nodup (limits : List Nat) : (indexTuples limits).Nodup := by
  apply (indexTuples_sorted limits).imp
  intro tuple other smaller same
  subst same
  exact List.lex_irrefl Nat.lt_irrefl tuple smaller

theorem length_indexTuples (limits : List Nat) : (indexTuples limits).length = limits.prod := by
  induction limits with
  | nil => rfl
  | cons limit rest ih => simp [indexTuples, ih]

/-- Each tuple of the other dimensions is followed by all indices of the last one before the next tuple comes. -/
theorem indexTuples_concat (limits : List Nat) (last : Nat) :
    indexTuples (limits ++ [last]) =
      (indexTuples limits).flatMap fun tuple => (List.range last).map fun index => tuple ++ [index] := by
  induction limits with
  | nil => simp [indexTuples, List.map_eq_flatMap]
  | cons limit rest ih =>
    rw [List.cons_append, indexTuples, ih, indexTuples, List.flatMap_assoc]
    congr 1
    funext index
    simp only [List.map_flatMap, List.flatMap_map, List.map_map, Function.comp_def, List.cons_append]

/-- The tuples of an array are those below its limits, each listed once and in lexicographic order. They are also what
comes of extending shorter tuples on the right, dimension by dimension. -/
theorem indexTuples_list_all_below (limits : List Nat) :
    (∀ tuple, tuple ∈ indexTuples limits ↔ tuple.length = limits.length ∧
      ∀ place (inTuple : place < tuple.length) (inLimits : place < limits.length), tuple[place] < limits[place]) ∧
    (indexTuples limits).Nodup ∧
    (indexTuples limits).Pairwise (List.Lex (· < ·)) ∧
    (indexTuples limits).length = limits.prod ∧
    indexTuples [] = [[]] ∧
    ∀ last, indexTuples (limits ++ [last]) =
      (indexTuples limits).flatMap fun tuple => (List.range last).map fun index => tuple ++ [index] := by
  refine ⟨?_, indexTuples_nodup limits, indexTuples_sorted limits, length_indexTuples limits, rfl,
    indexTuples_concat limits⟩
  intro tuple
  rw [mem_indexTuples]
  exact List.forall₂_iff_get

theorem indexTuples_list_all_below_three_dimensions :
    [1, 0, 2] ∈ indexTuples [2, 1, 3] ∧ [1, 1, 0] ∉ indexTuples [2, 1, 3] ∧ [1, 0] ∉ indexTuples [2, 1, 3] ∧
    (indexTuples [2, 1, 3]).length = 6 ∧ indexTuples [2, 0, 3] = [] := by
  obtain ⟨listed, _, _, length, _⟩ := indexTuples_list_all_below [2, 1, 3]
  have inside : ∀ place (inTuple : place < 3) (_ : place < 3), [1, 0, 2][place] < [2, 1, 3][place] := by decide
  have narrow : ¬ [1, 1, 0][1] < [2, 1, 3][1] := by decide
  refine ⟨(listed _).mpr ⟨rfl, inside⟩, ?_, ?_, length, ?_⟩
  · exact fun member => narrow (((listed _).mp member).2 1 (by decide) (by decide))
  · exact fun member => absurd ((listed _).mp member).1 (by decide)
  · exact List.eq_nil_of_length_eq_zero (indexTuples_list_all_below [2, 0, 3]).2.2.2.1

end RegisterCatalog
