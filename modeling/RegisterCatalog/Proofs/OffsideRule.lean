import Mathlib.Data.List.TakeWhile
import RegisterCatalog.Proofs.OpenEntries

/-! The offside rule: a line stands below the nearest earlier line that is indented less. The reader keeps
only the open lines, and they are always the last line with all lines that it stands below. -/

namespace RegisterCatalog.Level

theorem depth_le (level : Level) : level.depth ≤ 2 := by
  cases level <;> decide

theorem exists_depth {depth : Nat} (shallow : depth ≤ 2) : ∃ level : Level, level.depth = depth := by
  match depth, shallow with
  | 0, _ => exact ⟨.address, rfl⟩
  | 1, _ => exact ⟨.field, rfl⟩
  | 2, _ => exact ⟨.value, rfl⟩

end RegisterCatalog.Level

namespace RegisterCatalog.Outline
open Outcome

/-- The last of the first `count` lines that is indented less than `width`. -/
def nearest? (widthOf : Nat → Nat) (width : Nat) : (count : Nat) → Option Nat
  | 0 => none
  | line + 1 => if widthOf line < width then some line else nearest? widthOf width line

/-- The line that a line stands below. -/
def outer? (widthOf : Nat → Nat) (line : Nat) : Option Nat := nearest? widthOf (widthOf line) line

variable {widthOf : Nat → Nat}

theorem nearest?_eq_some {width count line : Nat} (found : nearest? widthOf width count = some line) :
    line < count ∧ widthOf line < width ∧ ∀ later, line < later → later < count → width ≤ widthOf later := by
  induction count with
  | zero => cases found
  | succ last ih =>
    unfold nearest? at found
    split at found
    next narrow =>
      cases found
      exact ⟨Nat.lt_succ_self _, narrow, by omega⟩
    next wide =>
      obtain ⟨inside, narrow, between⟩ := ih found
      refine ⟨by omega, narrow, ?_⟩
      intro later after before
      by_cases same : later = last
      · subst same
        omega
      · exact between later after (by omega)

theorem nearest?_eq_none {width count : Nat} (missing : nearest? widthOf width count = none) :
    ∀ line < count, width ≤ widthOf line := by
  induction count with
  | zero => simp
  | succ last ih =>
    unfold nearest? at missing
    split at missing
    · cases missing
    next wide =>
      intro line inside
      by_cases same : line = last
      · subst same
        omega
      · exact ih missing line (by omega)

theorem nearest?_skip {width first count : Nat} (ordered : first ≤ count)
    (wide : ∀ line, first ≤ line → line < count → width ≤ widthOf line) :
    nearest? widthOf width count = nearest? widthOf width first := by
  induction ordered with
  | refl => rfl
  | @step last ordered ih =>
    have enough := wide last ordered (Nat.lt_succ_self last)
    rw [nearest?, if_neg (by omega)]
    exact ih fun line after before => wide line after (by omega)

theorem outer?_lt {line outer : Nat} (found : outer? widthOf line = some outer) : outer < line :=
  (nearest?_eq_some found).1

/-- All lines that a line stands below, the nearest first. -/
def ancestors (widthOf : Nat → Nat) (line : Nat) : List Nat :=
  match _ : outer? widthOf line with
  | none => []
  | some outer => outer :: ancestors widthOf outer
termination_by line
decreasing_by exact outer?_lt ‹_›

theorem ancestors_of_none {line : Nat} (found : outer? widthOf line = none) : ancestors widthOf line = [] := by
  rw [ancestors]
  split
  · rfl
  next other => cases found.symm.trans other

theorem ancestors_of_some {line outer : Nat} (found : outer? widthOf line = some outer) :
    ancestors widthOf line = outer :: ancestors widthOf outer := by
  rw [ancestors]
  split
  next other => cases found.symm.trans other
  next other =>
    cases found.symm.trans other
    rfl

theorem head?_ancestors (line : Nat) : (ancestors widthOf line).head? = outer? widthOf line := by
  cases found : outer? widthOf line with
  | none => rw [ancestors_of_none found, List.head?_nil]
  | some outer => rw [ancestors_of_some found, List.head?_cons]

theorem ancestors_narrower (line : Nat) : ∀ above ∈ ancestors widthOf line, widthOf above < widthOf line := by
  induction line using Nat.strongRecOn with
  | ind line ih =>
    cases found : outer? widthOf line with
    | none => simp [ancestors_of_none found]
    | some outer =>
      obtain ⟨earlier, narrow, _⟩ := nearest?_eq_some found
      rw [ancestors_of_some found, List.forall_mem_cons]
      refine ⟨narrow, ?_⟩
      intro above member
      exact Nat.lt_trans (ih outer earlier above member) narrow

/-- The lines that are open after the first `count` ones. -/
def openAfter (widthOf : Nat → Nat) : (count : Nat) → List Nat
  | 0 => []
  | line + 1 => line :: ancestors widthOf line

theorem dropWhile_openAfter (width count : Nat) :
    (openAfter widthOf count).dropWhile (fun line => width ≤ widthOf line) =
      (nearest? widthOf width count).elim [] fun line => line :: ancestors widthOf line := by
  induction count using Nat.strongRecOn with
  | ind count ih =>
    cases count with
    | zero => rfl
    | succ last =>
      rw [openAfter, nearest?]
      by_cases narrow : widthOf last < width
      · rw [if_pos narrow, List.dropWhile_cons_of_neg (by simpa using narrow)]
        rfl
      · have wide : width ≤ widthOf last := by omega
        rw [if_neg narrow, List.dropWhile_cons_of_pos (by simpa using wide)]
        cases found : outer? widthOf last with
        | none =>
          have all := nearest?_eq_none found
          rw [ancestors_of_none found, nearest?_skip (Nat.zero_le last)]
          · rfl
          · intro line _ inside
            exact Nat.le_trans wide (all line inside)
        | some outer =>
          obtain ⟨earlier, _, between⟩ := nearest?_eq_some found
          rw [ancestors_of_some found, nearest?_skip (Nat.succ_le_of_lt earlier)]
          · exact ih (outer + 1) (by omega)
          · intro line after inside
            exact Nat.le_trans wide (between line after inside)

theorem ancestors_eq_dropWhile (line : Nat) :
    ancestors widthOf line = (openAfter widthOf line).dropWhile fun other => widthOf line ≤ widthOf other := by
  rw [dropWhile_openAfter]
  cases found : outer? widthOf line with
  | none =>
    rw [ancestors_of_none found, show nearest? widthOf (widthOf line) line = none from found]
    rfl
  | some outer =>
    rw [ancestors_of_some found, show nearest? widthOf (widthOf line) line = some outer from found]
    rfl

theorem ancestors_of_suffix {count inner : Nat} {rest : List Nat}
    (within : inner :: rest <:+ openAfter widthOf count) : rest = ancestors widthOf inner := by
  induction count using Nat.strongRecOn with
  | ind count ih =>
    cases count with
    | zero => simp [openAfter] at within
    | succ last =>
      rcases List.suffix_cons_iff.mp within with same | within
      · cases same
        rfl
      · cases found : outer? widthOf last with
        | none => simp [ancestors_of_none found] at within
        | some outer =>
          rw [ancestors_of_some found] at within
          exact ih (outer + 1) (Nat.succ_lt_succ (outer?_lt found)) within

theorem mem_openAfter_lt {count line : Nat} (member : line ∈ openAfter widthOf count) : line < count := by
  induction count using Nat.strongRecOn with
  | ind count ih =>
    cases count with
    | zero => simp [openAfter] at member
    | succ last =>
      rcases List.mem_cons.mp member with rfl | member
      · exact Nat.lt_succ_self line
      · rw [ancestors_eq_dropWhile] at member
        exact Nat.lt_succ_of_lt (ih last (Nat.lt_succ_self last) ((List.dropWhile_sublist _).subset member))

theorem openAfter_decreasing (count : Nat) :
    (openAfter widthOf count).Pairwise fun inner outer => widthOf outer < widthOf inner := by
  induction count using Nat.strongRecOn with
  | ind count ih =>
    cases count with
    | zero => exact .nil
    | succ last =>
      refine .cons (ancestors_narrower last) ?_
      rw [ancestors_eq_dropWhile]
      exact (ih last (Nat.lt_succ_self last)).sublist (List.dropWhile_sublist _)

section Places

variable {α β : Type} {measure : α → Nat} {opened : List α} {width : Nat}

theorem above_eq_dropWhile {found : Place α}
    (decreasing : opened.Pairwise fun inner outer => measure outer < measure inner)
    (done : place measure opened width = .ok found) :
    found.above = opened.dropWhile fun entry => width ≤ measure entry := by
  rcases place_eq_ok done with ⟨_, all, narrow⟩ | ⟨previous, _, ⟨inner, split⟩, same⟩
  · rw [all]
    cases opened with
    | nil => rfl
    | cons innermost rest => rw [List.dropWhile_cons_of_neg (by simpa using narrow)]
  · subst split
    rw [List.pairwise_append, List.pairwise_cons] at decreasing
    obtain ⟨_, ⟨outside, _⟩, wider⟩ := decreasing
    rw [List.dropWhile_append_of_pos, List.dropWhile_cons_of_pos (by simp [same])]
    · cases rest : found.above with
      | nil => rfl
      | cons next others =>
        have narrow := outside next (by simp [rest])
        rw [List.dropWhile_cons_of_neg (by simp; omega)]
    · intro entry member
      have wide := wider entry member previous List.mem_cons_self
      simp only [decide_eq_true_eq]
      omega

theorem place_eq_error {fault : Fault} (failed : place measure opened width = .error fault) :
    ∃ inner rest, inner :: rest <:+ opened ∧ width < measure inner ∧ ∀ next ∈ rest.head?, measure next < width := by
  unfold place at failed
  split at failed
  · cases failed
  next innermost outer =>
    split at failed
    · cases failed
    next wide =>
      have parts := List.takeWhile_append_dropWhile (p := fun entry => width < measure entry) (l := innermost :: outer)
      have stop : ∀ next ∈ ((innermost :: outer).dropWhile fun entry => width < measure entry).head?,
          measure next < width := by
        intro next first
        split at failed
        next empty => simp [empty] at first
        next previous above rest =>
          split at failed
          · cases failed
          next different =>
            have kept := List.head?_dropWhile_not (fun entry => decide (width < measure entry)) (innermost :: outer)
            rw [rest, List.head?_cons, Option.mem_some_iff] at first
            subst first
            rw [rest] at kept
            simp only [List.head?_cons, decide_eq_false_iff_not] at kept
            omega
      rcases List.eq_nil_or_concat ((innermost :: outer).takeWhile fun entry => width < measure entry) with
        none | ⟨inner, last, some⟩
      · rw [none, List.nil_append] at parts
        rw [parts] at stop
        have narrow := stop innermost (by simp)
        omega
      · have member : last ∈ (innermost :: outer).takeWhile fun entry => width < measure entry := by
          simp [some]
        refine ⟨last, _, ⟨inner, ?_⟩, by simpa using List.mem_takeWhile_imp member, stop⟩
        rw [some, List.concat_eq_append, List.append_assoc] at parts
        exact parts

def Place.map (f : α → β) (found : Place α) : Place β := ⟨found.previous?.map f, found.above.map f⟩

theorem place_map (f : α → β) (measure : β → Nat) (opened : List α) (width : Nat) :
    place measure (opened.map f) width = (place (measure ∘ f) opened width).map (Place.map f) := by
  cases opened with
  | nil => rfl
  | cons innermost outer =>
    simp only [place, List.map_cons, Function.comp_apply]
    rw [← List.map_cons, List.dropWhile_map]
    split
    · rfl
    · simp only [Function.comp_def]
      cases (innermost :: outer).dropWhile fun entry => width < measure (f entry) with
      | nil => rfl
      | cons previous above =>
        simp only [List.map_cons]
        split <;> rfl

end Places

/-- What is known after some lines: the widths of the open ones, and the levels of all. -/
structure Trail where
  opened : List Nat := []
  levels : List Level := []

def Trail.extend (trail : Trail) (width : Nat) : Except Fault Trail := do
  let found ← place id trail.opened width
  match Level.ofDepth? found.above.length with
  | none => .error .tooDeep
  | some level => return ⟨width :: found.above, trail.levels ++ [level]⟩

/-- Lines that keep the rule: none is too deep, and lines below one line are indented alike. -/
structure Regular (widthOf : Nat → Nat) (count : Nat) : Prop where
  shallow : ∀ line < count, (ancestors widthOf line).length ≤ 2
  aligned : ∀ first < count, ∀ second < count, outer? widthOf first = outer? widthOf second →
    widthOf first = widthOf second

theorem Regular.of_succ {count : Nat} (regular : Regular widthOf (count + 1)) : Regular widthOf count := by
  refine ⟨fun line inside => regular.shallow line (by omega), ?_⟩
  intro first one second two
  exact regular.aligned first (by omega) second (by omega)

theorem above_eq_ancestors {line : Nat} {found : Place Nat}
    (done : place widthOf (openAfter widthOf line) (widthOf line) = .ok found) :
    found.above = ancestors widthOf line := by
  rw [above_eq_dropWhile (openAfter_decreasing line) done, ancestors_eq_dropWhile]

/-- A line that finds a place is aligned with all lines that stand below the same line. -/
theorem aligned_of_place {line : Nat} {found : Place Nat} (regular : Regular widthOf line)
    (done : place widthOf (openAfter widthOf line) (widthOf line) = .ok found) :
    ∀ other < line, outer? widthOf other = outer? widthOf line → widthOf other = widthOf line := by
  intro other earlier same
  have above := above_eq_ancestors done
  rcases place_eq_ok done with ⟨_, all, _⟩ | ⟨previous, _, within, width⟩
  · cases line with
    | zero => omega
    | succ last =>
      have outer : outer? widthOf (last + 1) = some last := by
        rw [← head?_ancestors, ← above, all]
        rfl
      have inside := outer?_lt (same.trans outer)
      omega
  · have siblings : outer? widthOf previous = outer? widthOf line := by
      rw [← head?_ancestors, ← head?_ancestors, ← ancestors_of_suffix within, above]
    have inside : previous < line := mem_openAfter_lt (within.subset List.mem_cons_self)
    rw [← width]
    exact regular.aligned other earlier previous inside (same.trans siblings.symm)

theorem not_regular_of_place {line : Nat} {fault : Fault}
    (failed : place widthOf (openAfter widthOf line) (widthOf line) = .error fault) : ¬ Regular widthOf (line + 1) := by
  intro regular
  obtain ⟨inner, rest, within, wider, narrow⟩ := place_eq_error failed
  have siblings : outer? widthOf inner = outer? widthOf line := by
    rw [← head?_ancestors, ← head?_ancestors, ancestors_eq_dropWhile line, ← ancestors_of_suffix within]
    obtain ⟨others, split⟩ := within
    have decreasing : (openAfter widthOf line).Pairwise fun inner outer => widthOf outer < widthOf inner :=
      openAfter_decreasing line
    rw [← split, List.pairwise_append] at decreasing
    rw [← split, List.dropWhile_append_of_pos, List.dropWhile_cons_of_pos (by simp; omega)]
    · cases rest with
      | nil => rfl
      | cons next outer =>
        have less := narrow next (by simp)
        rw [List.dropWhile_cons_of_neg (by simpa using less)]
    · intro other member
      have more := decreasing.2.2 other member inner List.mem_cons_self
      simp only [decide_eq_true_eq]
      omega
  have inside : inner < line := mem_openAfter_lt (within.subset List.mem_cons_self)
  have same := regular.aligned inner (by omega) line (by omega) siblings
  omega

def trailOf (widths : List Nat) : Except Fault Trail := widths.foldlM Trail.extend {}

theorem trailOf_concat (widths : List Nat) (width : Nat) :
    trailOf (widths ++ [width]) = trailOf widths >>= fun trail => trail.extend width := by
  simp [trailOf]

theorem Trail.extend_eq_ok {trail after : Trail} {line : Nat}
    (opened : trail.opened = (openAfter widthOf line).map widthOf) :
    trail.extend (widthOf line) = .ok after ↔
      ∃ found level, place widthOf (openAfter widthOf line) (widthOf line) = .ok found ∧
        level.depth = (ancestors widthOf line).length ∧
        after = ⟨(openAfter widthOf (line + 1)).map widthOf, trail.levels ++ [level]⟩ := by
  unfold extend
  rw [opened, place_map, Function.id_comp]
  cases done : place widthOf (openAfter widthOf line) (widthOf line) with
  | error fault => simp [Except.map, bind, Except.bind]
  | ok found =>
    have above := above_eq_ancestors done
    simp only [Except.map, bind, Except.bind, Place.map, List.length_map, above]
    cases deep : Level.ofDepth? (ancestors widthOf line).length with
    | none =>
      simp only [reduceCtorEq, Except.ok.injEq, exists_and_left, exists_eq_left', false_iff, not_exists]
      intro level ⟨depth, _⟩
      rw [Level.ofDepth?_eq_some.mpr depth] at deep
      cases deep
    | some level =>
      have depth := Level.ofDepth?_eq_some.mp deep
      constructor
      · intro same
        cases same
        exact ⟨found, level, rfl, depth, rfl⟩
      · rintro ⟨_, other, _, otherDepth, rfl⟩
        have same := Level.ofDepth?_eq_some.mpr otherDepth
        cases deep.symm.trans same
        rfl

theorem trailOf_range_eq_ok {count : Nat} {trail : Trail}
    (done : trailOf ((List.range count).map widthOf) = .ok trail) :
    Regular widthOf count ∧ trail.opened = (openAfter widthOf count).map widthOf ∧
      trail.levels.map Level.depth = (List.range count).map fun line => (ancestors widthOf line).length := by
  induction count generalizing trail with
  | zero =>
    cases done
    exact ⟨⟨by simp, by simp⟩, rfl, rfl⟩
  | succ last ih =>
    rw [List.range_succ, List.map_append, List.map_singleton, trailOf_concat] at done
    obtain ⟨before, reached, done⟩ := bind_eq_ok.mp done
    obtain ⟨regular, opened, levels⟩ := ih reached
    obtain ⟨found, level, placed, depth, rfl⟩ := (Trail.extend_eq_ok opened).mp done
    refine ⟨⟨?_, ?_⟩, rfl, by simp [List.range_succ, levels, depth]⟩
    · intro line inside
      by_cases same : line = last
      · rw [same, ← depth]
        exact level.depth_le
      · exact regular.shallow line (by omega)
    · have aligned := aligned_of_place regular placed
      intro first one second two same
      by_cases new : first = last <;> by_cases old : second = last
      · rw [new, old]
      · rw [new] at same ⊢
        exact (aligned second (by omega) same.symm).symm
      · rw [old] at same ⊢
        exact aligned first (by omega) same
      · exact regular.aligned first (by omega) second (by omega) same

theorem exists_trailOf_range {count : Nat} (regular : Regular widthOf count) :
    ∃ trail, trailOf ((List.range count).map widthOf) = .ok trail := by
  induction count with
  | zero => exact ⟨{}, rfl⟩
  | succ last ih =>
    obtain ⟨before, reached⟩ := ih regular.of_succ
    obtain ⟨_, opened, _⟩ := trailOf_range_eq_ok reached
    rw [List.range_succ, List.map_append, List.map_singleton, trailOf_concat]
    cases placed : place widthOf (openAfter widthOf last) (widthOf last) with
    | error fault => exact absurd regular (not_regular_of_place placed)
    | ok found =>
      obtain ⟨level, depth⟩ := Level.exists_depth (regular.shallow last (Nat.lt_succ_self last))
      exact ⟨_, bind_eq_ok.mpr ⟨before, reached, (Trail.extend_eq_ok opened).mpr ⟨found, level, placed, depth, rfl⟩⟩⟩

end RegisterCatalog.Outline
