import RegisterCatalog.Proofs.PrintedLines

/-! What the preprocessor leaves of a text. It reads line by line and keeps the plain lines whose
conditions all hold. Lines that open nothing they do not close can be read for themselves: such a block
leaves the same lines wherever it stands. -/

namespace RegisterCatalog.Preprocessor

/-- What a line is for. The second and the third go on with a conditional that is open. -/
inductive Line
  | opening (condition : String)
  | another (condition : String)
  | otherwise
  | closing
  | plain
  deriving DecidableEq

/-- Blanks before a directive do not count, nor what follows one that has no condition. -/
def Line.ofText (line : String) : Line :=
  match line.toList.dropWhile (· == ' ') with
  | '#' :: 'i' :: 'f' :: ' ' :: condition => .opening (String.ofList condition)
  | '#' :: 'e' :: 'l' :: 'i' :: 'f' :: ' ' :: condition => .another (String.ofList condition)
  | '#' :: 'e' :: 'l' :: 's' :: 'e' :: _ => .otherwise
  | '#' :: 'e' :: 'n' :: 'd' :: 'i' :: 'f' :: _ => .closing
  | _ => .plain

/-- A conditional that has not been closed. It is `live` while the branch being read is the one that is taken,
and `last` once that is the branch for all other cases. -/
structure Conditional where
  live : Bool
  taken : Bool
  last : Bool

/-- The conditionals open after a line; nothing if it does not fit those before it or has no truth. -/
def step (truth : String → Option Bool) (opened : List Conditional) : Line → Option (List Conditional)
  | .plain => some opened
  | .opening condition => (truth condition).map fun value => ⟨value, value, false⟩ :: opened
  | .another condition =>
    match opened with
    | ⟨_, taken, false⟩ :: outer => (truth condition).map fun value => ⟨value && !taken, value || taken, false⟩ :: outer
    | _ => none
  | .otherwise =>
    match opened with
    | ⟨_, taken, false⟩ :: outer => some (⟨!taken, true, true⟩ :: outer)
    | _ => none
  | .closing =>
    match opened with
    | _ :: outer => some outer
    | [] => none

/-- The lines that are left, where the truth of a condition may depend on the number of its line;
nothing if the conditionals do not balance. -/
def run (truth : Nat → String → Option Bool) (number : Nat) (opened : List Conditional) :
    List String → Option (List String)
  | [] => if opened.isEmpty then some [] else none
  | line :: rest => do
    let next ← step (truth number) opened (Line.ofText line)
    let own := if Line.ofText line = .plain ∧ opened.all Conditional.live then [line] else []
    (run truth (number + 1) next rest).map (own ++ ·)

def survivors (truth : Nat → String → Option Bool) (text : String) : Option (List String) :=
  run truth 0 [] (Text.linesOf text)

theorem ofText_if (condition : String) : Line.ofText ("#if " ++ condition) = .opening condition := by
  simp [Line.ofText]

theorem ofText_elif (condition : String) : Line.ofText ("#elif " ++ condition) = .another condition := by
  simp [Line.ofText]

theorem ofText_endif (note : String) : Line.ofText ("#endif // " ++ note) = .closing := by
  simp [Line.ofText]

theorem ofText_plain {start : String} (rest : String)
    (word : (start.toList.dropWhile (· == ' ')).head?.any (· != '#')) : Line.ofText (start ++ rest) = .plain := by
  cases found : start.toList.dropWhile (· == ' ') with
  | nil => simp [found] at word
  | cons first others =>
    have other : first ≠ '#' := by simpa [found] using word
    have drop : (start.toList ++ rest.toList).dropWhile (· == ' ') = first :: (others ++ rest.toList) := by
      rw [List.dropWhile_append, found]
      rfl
    simp only [Line.ofText, String.toList_append, drop]
    split <;> simp_all

section
variable {truth : Nat → String → Option Bool} {number : Nat} {opened : List Conditional} {line : String}

theorem run_plain (plain : Line.ofText line = .plain) (rest : List String) :
    run truth number opened (line :: rest) =
      (run truth (number + 1) opened rest).map ((if opened.all Conditional.live then [line] else []) ++ ·) := by
  simp [run, plain, step]

theorem run_opening {condition : String} {value : Bool} (opens : Line.ofText line = .opening condition)
    (decided : truth number condition = some value) (rest : List String) :
    run truth number opened (line :: rest) = run truth (number + 1) (⟨value, value, false⟩ :: opened) rest := by
  simp [run, opens, step, decided]

theorem run_another {condition : String} {live taken value : Bool} (goesOn : Line.ofText line = .another condition)
    (decided : truth number condition = some value) (rest : List String) :
    run truth number (⟨live, taken, false⟩ :: opened) (line :: rest) =
      run truth (number + 1) (⟨value && !taken, value || taken, false⟩ :: opened) rest := by
  simp [run, goesOn, step, decided]

theorem run_otherwise {live taken : Bool} (goesOn : Line.ofText line = .otherwise) (rest : List String) :
    run truth number (⟨live, taken, false⟩ :: opened) (line :: rest) =
      run truth (number + 1) (⟨!taken, true, true⟩ :: opened) rest := by
  simp [run, goesOn, step]

theorem run_closing {conditional : Conditional} (closes : Line.ofText line = .closing) (rest : List String) :
    run truth number (conditional :: opened) (line :: rest) = run truth (number + 1) opened rest := by
  simp [run, closes, step]

/-- The preprocessor only leaves lines out. -/
theorem run_sublist {lines kept : List String} (done : run truth number opened lines = some kept) :
    kept.Sublist lines := by
  induction lines generalizing number opened kept with
  | nil =>
    simp only [run] at done
    split at done
    · cases done
      exact .slnil
    · cases done
  | cons line rest ih =>
    simp only [run, Option.bind_eq_bind, Option.bind_eq_some_iff, Option.map_eq_some_iff] at done
    obtain ⟨next, _, later, left, rfl⟩ := done
    split
    · exact (ih left).cons_cons line
    · exact (ih left).cons line

end

/-- What the truth of the conditions on some lines is. -/
def Decided (truth : Nat → String → Option Bool) (holds : Nat → String → Bool) (first count : Nat) : Prop :=
  ∀ number, first ≤ number → number < first + count → ∀ condition, truth number condition = some (holds number condition)

namespace Decided

variable {truth : Nat → String → Option Bool} {holds : Nat → String → Bool} {first : Nat} {before after : List String}

theorem apply {count : Nat} {condition : String} (decided : Decided truth holds first count) (positive : 0 < count) :
    truth first condition = some (holds first condition) :=
  decided first (Nat.le_refl first) (by omega) condition

theorem earlier (decided : Decided truth holds first (before ++ after).length) : Decided truth holds first before.length := by
  intro number lower upper
  rw [List.length_append] at decided
  exact decided number lower (by omega)

theorem later (decided : Decided truth holds first (before ++ after).length) :
    Decided truth holds (first + before.length) after.length := by
  intro number lower upper
  rw [List.length_append] at decided
  exact decided number (by omega) (by omega)

end Decided

/-- These lines leave those that are kept, wherever they are read from this number on. -/
def Block (truth : Nat → String → Option Bool) (number : Nat) (lines kept : List String) : Prop :=
  ∀ opened rest, run truth number opened (lines ++ rest) =
    (run truth (number + lines.length) opened rest).map
      ((if opened.all Conditional.live then kept else []) ++ ·)

namespace Block

variable {truth : Nat → String → Option Bool} {number : Nat}

theorem nil (truth : Nat → String → Option Bool) (number : Nat) : Block truth number [] [] := by
  intro opened rest
  simp

theorem plain {line : String} (plain : Line.ofText line = .plain) : Block truth number [line] [line] := by
  intro opened rest
  exact run_plain plain rest

theorem append {first second left right : List String} (one : Block truth number first left)
    (two : Block truth (number + first.length) second right) : Block truth number (first ++ second) (left ++ right) := by
  intro opened rest
  rw [List.append_assoc, one, two, List.length_append, ← Nat.add_assoc, Option.map_map]
  congr 1
  funext later
  by_cases live : opened.all Conditional.live <;> simp [live]

theorem plains {lines : List String} (plain : ∀ line ∈ lines, Line.ofText line = .plain) :
    Block truth number lines lines := by
  induction lines generalizing number with
  | nil => exact nil truth number
  | cons line rest ih =>
    rw [List.forall_mem_cons] at plain
    exact append (Block.plain plain.1) (ih plain.2)

theorem flatMap {items : List α} {lines kept : α → List String}
    (each : ∀ item ∈ items, ∀ later, number ≤ later → Block truth later (lines item) (kept item)) :
    Block truth number (items.flatMap lines) (items.flatMap kept) := by
  induction items generalizing number with
  | nil => exact nil truth number
  | cons item rest ih =>
    rw [List.forall_mem_cons] at each
    apply append (each.1 number (Nat.le_refl number))
    apply ih
    intro other member later after
    exact each.2 other member later (by omega)

theorem conditional {body kept : List String} {first last condition : String} {value : Bool}
    (opens : Line.ofText first = .opening condition) (closes : Line.ofText last = .closing)
    (decided : truth number condition = some value) (inner : Block truth (number + 1) body kept) :
    Block truth number (first :: body ++ [last]) (if value then kept else []) := by
  intro opened rest
  rw [List.cons_append, List.cons_append, List.append_assoc, run_opening opens decided, inner, List.singleton_append,
    run_closing closes]
  have count : number + (first :: (body ++ [last])).length = number + 1 + body.length + 1 := by
    simp only [List.length_cons, List.length_append, List.length_nil]
    omega
  rw [count]
  cases value <;> simp

theorem run_whole {lines kept : List String} (block : Block truth number lines kept) :
    run truth number [] lines = some kept := by
  have whole := block [] []
  simpa [run] using whole

theorem sublist {lines kept : List String} (block : Block truth number lines kept) : kept.Sublist lines :=
  run_sublist block.run_whole

end Block

end RegisterCatalog.Preprocessor

namespace RegisterCatalog.TableRow
open Preprocessor

theorem content_plain (row : TableRow) (alternative : Alternative) : Line.ofText (row.content alternative) = .plain := by
  unfold content
  rw [String.append_assoc]
  exact ofText_plain _ (by decide)

/-- The first alternative whose guard holds, if it has one. The guards stand on every other line. -/
def chosen? (holds : Nat → String → Bool) (number : Nat) : List Alternative → Option Alternative
  | [] => none
  | alternative :: rest =>
    if alternative.guard?.all fun guard => holds number guard.text then some alternative
    else chosen? holds (number + 2) rest

def chosenLines (holds : Nat → String → Bool) (number : Nat) (row : TableRow) (alternatives : List Alternative) :
    List String :=
  ((chosen? holds number alternatives).map row.content).toList

theorem chosenLines_cons (holds : Nat → String → Bool) (number : Nat) (row : TableRow) (alternative : Alternative)
    (rest : List Alternative) : row.chosenLines holds number (alternative :: rest) =
      if alternative.guard?.all fun guard => holds number guard.text then [row.content alternative]
      else row.chosenLines holds (number + 2) rest := by
  simp only [chosenLines, chosen?]
  split <;> rfl

variable {truth : Nat → String → Option Bool} {holds : Nat → String → Bool} {row : TableRow} {number : Nat}

/-- A chain that goes on after a guard ends its conditional, and leaves a line unless one was left before. -/
theorem run_chain {alternatives : List Alternative} (live taken : Bool) (opened : List Conditional) (rest : List String)
    (decided : Decided truth holds number (row.chain true alternatives).length) :
    run truth number (⟨live, taken, false⟩ :: opened) (row.chain true alternatives ++ rest) =
      (run truth (number + (row.chain true alternatives).length) opened rest).map
        ((if opened.all Conditional.live && !taken then row.chosenLines holds number alternatives else []) ++ ·) := by
  induction alternatives generalizing number live taken with
  | nil =>
    simp only [chain, if_pos, List.cons_append, List.nil_append]
    rw [run_closing (by decide)]
    simp [chosenLines, chosen?]
  | cons alternative others ih =>
    rw [chosenLines_cons]
    cases guarded : alternative.guard? with
    | some guard =>
      have lines : row.chain true (alternative :: others) =
          ["#elif " ++ guard.text, row.content alternative] ++ row.chain true others := by
        simp [chain, guarded]
      rw [lines] at decided ⊢
      have value : truth number guard.text = some (holds number guard.text) := decided.apply (by simp)
      have below : Decided truth holds (number + 1 + 1) (row.chain true others).length := decided.later
      rw [List.append_assoc, List.cons_append, List.cons_append, List.nil_append, run_another (ofText_elif _) value,
        run_plain (row.content_plain alternative), ih _ _ below, List.length_append, ← Nat.add_assoc,
        Option.map_map]
      cases held : holds number guard.text <;> cases taken <;> simp [Function.comp_def, held]
    | none =>
      have lines : row.chain true (alternative :: others) = ["#else", row.content alternative, "#endif"] := by
        simp [chain, guarded]
      rw [lines, List.cons_append, List.cons_append, List.cons_append, List.nil_append, run_otherwise (by decide),
        run_plain (row.content_plain alternative), run_closing (by decide)]
      cases taken <;> simp

/-- A row leaves the line of its first alternative whose guard holds. -/
theorem block_lines (decided : Decided truth holds number row.lines.length) :
    Block truth number row.lines (row.chosenLines holds number row.alternatives) := by
  unfold lines at decided ⊢
  generalize row.alternatives = alternatives at decided ⊢
  cases alternatives with
  | nil => exact .nil truth number
  | cons alternative others =>
    rw [chosenLines_cons]
    cases guarded : alternative.guard? with
    | some guard =>
      have lines : row.chain false (alternative :: others) =
          ["#if " ++ guard.text, row.content alternative] ++ row.chain true others := by
        simp [chain, guarded]
      rw [lines] at decided ⊢
      have value : truth number guard.text = some (holds number guard.text) := decided.apply (by simp)
      have below : Decided truth holds (number + 1 + 1) (row.chain true others).length := decided.later
      intro opened rest
      rw [List.append_assoc, List.cons_append, List.cons_append, List.nil_append, run_opening (ofText_if _) value,
        run_plain (row.content_plain alternative), run_chain _ _ _ _ below, List.length_append, ← Nat.add_assoc,
        Option.map_map]
      cases held : holds number guard.text <;> simp [Function.comp_def, held]
    | none =>
      have lines : row.chain false (alternative :: others) = [row.content alternative] := by
        simp [chain, guarded]
      rw [lines]
      exact .plain (row.content_plain alternative)

end RegisterCatalog.TableRow
