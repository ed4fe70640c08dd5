import Mathlib.Data.List.Basic
import RegisterCatalog.Artifact.Dependencies
import RegisterCatalog.Proofs.Occurrences
import RegisterCatalog.Proofs.PrintedLines

/-! Dependency manifests as a make tool reads them. Continued lines are joined, a rule is cut after its target, and its
prerequisites are told apart by the spaces that are not escaped. Whatever spaces and colons the paths of a manifest have,
and wherever they have them, the paths come back. -/

namespace RegisterCatalog

namespace Chars

/-- The pieces between spaces that are not escaped. A space is escaped by a backslash right before it. -/
def splitUnescaped (escaped : Bool) : List Char → List (List Char)
  | [] => [[]]
  | c :: rest =>
    if c = ' ' ∧ escaped = false then [] :: splitUnescaped false rest
    else (splitUnescaped (c == '\\') rest).modifyHead (c :: ·)

def escapeSpace (c : Char) : List Char := if c = ' ' then ['\\', ' '] else [c]

@[simp] theorem escapeSpace_space : escapeSpace ' ' = ['\\', ' '] := rfl

theorem escapeSpace_other {c : Char} (other : c ≠ ' ') : escapeSpace c = [c] := if_neg other

theorem replaceFrom_space (path : List Char) : replaceFrom [' '] ['\\', ' '] 0 path = path.flatMap escapeSpace := by
  induction path with
  | nil => rfl
  | cons c rest ih =>
    by_cases space : c = ' '
    · subst space
      simp [replaceFrom, ih]
    · simp [replaceFrom, escapeSpace_other space, Ne.symm space, ih]

/-- Escaped spaces belong to the piece that they are in. -/
theorem splitUnescaped_append {path : List Char} (clean : '\\' ∉ path) (rest : List Char) :
    splitUnescaped false (path.flatMap escapeSpace ++ rest) =
      (splitUnescaped false rest).modifyHead (path.flatMap escapeSpace ++ ·) := by
  induction path with
  | nil => cases found : splitUnescaped false rest <;> simp [found]
  | cons c others ih =>
    rw [List.mem_cons, not_or] at clean
    have later := ih clean.2
    by_cases space : c = ' '
    · subst space
      simp [splitUnescaped, later, List.modifyHead_modifyHead, Function.comp_def]
    · have plain : (c == '\\') = false := by simpa using Ne.symm clean.1
      simp [splitUnescaped, escapeSpace_other space, space, plain, later, List.modifyHead_modifyHead, Function.comp_def]

theorem replaceFrom_escaped {path : List Char} (clean : '\\' ∉ path) :
    replaceFrom ['\\', ' '] [' '] 0 (path.flatMap escapeSpace) = path := by
  induction path with
  | nil => rfl
  | cons c rest ih =>
    rw [List.mem_cons, not_or] at clean
    by_cases space : c = ' '
    · subst space
      simp [replaceFrom, ih clean.2]
    · simp [replaceFrom, escapeSpace_other space, clean.1, ih clean.2]

theorem head?_escaped (path : List Char) : (path.flatMap escapeSpace).head? ≠ some ' ' := by
  cases path with
  | nil => simp
  | cons c rest =>
    by_cases space : c = ' '
    · simp [space]
    · simp [escapeSpace_other space, space]

/-- Before a space in an escaped path stands a backslash, and never a colon. -/
theorem colon_space_not_infix (path : List Char) : ¬ [':', ' '] <:+: path.flatMap escapeSpace := by
  induction path with
  | nil => simp
  | cons c rest ih =>
    by_cases space : c = ' '
    · subst space
      simpa [List.infix_cons_iff] using ih
    · have first := head?_escaped rest
      rw [List.flatMap_cons, escapeSpace_other space, List.singleton_append, List.infix_cons_iff, not_or]
      refine ⟨?_, ih⟩
      intro start
      obtain ⟨_, second⟩ := List.cons_prefix_cons.mp start
      obtain ⟨others, split⟩ := second
      exact first (by simp [← split])

theorem getLast?_escaped {path : List Char} (clean : '\\' ∉ path) : (path.flatMap escapeSpace).getLast? ≠ some '\\' := by
  intro last
  obtain ⟨front, split⟩ := List.getLast?_eq_some_iff.mp last
  rcases List.eq_nil_or_concat path with none | ⟨before, c, some⟩
  · simp [none] at last
  · rw [some, List.concat_eq_append, List.mem_append, List.mem_singleton, not_or] at clean
    rw [some, List.concat_eq_append] at last
    by_cases space : c = ' '
    · simp [space] at last
    · simp [escapeSpace_other space, Ne.symm clean.2] at last

end Chars

/-- A rule without a recipe. -/
structure MakeRule where
  target : String
  prerequisites : List String
  deriving DecidableEq

namespace MakeRule

/-- A line that ends with a backslash goes on in the next one. -/
def joinContinued : List String → List String
  | [] => []
  | line :: rest =>
    match Text.dropEnd? "\\" line with
    | none => line :: joinContinued rest
    | some start =>
      match joinContinued rest with
      | [] => [start]
      | next :: later => (start ++ next) :: later

def unescape (text : String) : String := Text.replace "\\ " " " text

def paths (text : String) : List String :=
  ((Chars.splitUnescaped false text.toList).filter fun piece => !piece.isEmpty).map fun piece =>
    unescape (String.ofList piece)

/-- The target ends at the first colon that an unescaped space follows. A rule without such a colon has no prerequisites,
and its own colon is the last character. -/
def ofLine? (line : String) : Option MakeRule :=
  match Text.splitOnce ": " line with
  | some (target, rest) => some ⟨unescape target, paths rest⟩
  | none => (Text.dropEnd? ":" line).map fun target => ⟨unescape target, []⟩

/-- The rules of a text in order. Empty lines separate them. -/
def readAll? (text : String) : Option (List MakeRule) :=
  ((joinContinued (Text.linesOf text)).filter (· ≠ "")).mapM ofLine?

/-- A path that a manifest can name. -/
structure Writable (path : String) : Prop where
  nonempty : path ≠ ""
  oneLine : Text.OneLine path
  clean : '\\' ∉ path.toList

end MakeRule

namespace Dependencies
open MakeRule

theorem toList_escape (path : String) : (escape path).toList = path.toList.flatMap Chars.escapeSpace := by
  simp [escape, Text.replace, Chars.replace, Chars.replaceFrom_space]

theorem unescape_escape {path : String} (writable : Writable path) : unescape (escape path) = path := by
  apply String.toList_inj.mp
  simp [unescape, Text.replace, Chars.replace, toList_escape, Chars.replaceFrom_escaped writable.clean]

theorem escape_ne_empty {path : String} (writable : Writable path) : escape path ≠ "" := by
  intro empty
  apply writable.nonempty
  rw [← unescape_escape writable, empty]
  rfl

theorem escape_oneLine {path : String} (writable : Writable path) : Text.OneLine (escape path) := by
  intro feed
  rw [toList_escape, List.mem_flatMap] at feed
  obtain ⟨c, member, inside⟩ := feed
  by_cases space : c = ' '
  · simp [space] at inside
  · rw [Chars.escapeSpace_other space, List.mem_singleton] at inside
    exact writable.oneLine (inside ▸ member)

/-- The lines of the first rule, the first of which starts with `start`. -/
def ruleLines (start : String) : List String → List String
  | [] => [start]
  | input :: rest => (start ++ " \\") :: ruleLines ("  " ++ escape input) rest

def emptyLines (input : String) : List String := ["", escape input ++ ":"]

def lines (dependencies : Dependencies) : List String :=
  ruleLines (escape dependencies.target ++ ":") dependencies.inputs ++ dependencies.inputs.flatMap emptyLines

theorem ofLines_ruleLines (start : String) (inputs : List String) :
    Text.ofLines (ruleLines start inputs) =
      start ++ String.join (inputs.map fun input => " \\\n  " ++ escape input) ++ "\n" := by
  induction inputs generalizing start with
  | nil => simp [ruleLines, Text.ofLines]
  | cons input rest ih =>
    have later := congrArg String.toList (ih ("  " ++ escape input))
    apply String.toList_inj.mp
    simpa [ruleLines, Text.ofLines] using later

theorem ofLines_emptyLines (inputs : List String) :
    Text.ofLines (inputs.flatMap emptyLines) = String.join (inputs.map emptyRule) := by
  induction inputs with
  | nil => rfl
  | cons input rest ih =>
    have later := congrArg String.toList ih
    apply String.toList_inj.mp
    simpa [emptyLines, emptyRule, Text.ofLines] using later

theorem text_eq (dependencies : Dependencies) : dependencies.text = Text.ofLines dependencies.lines := by
  have rule := ofLines_ruleLines (escape dependencies.target ++ ":") dependencies.inputs
  rw [lines, text, Dependencies.rule, ← rule, ← ofLines_emptyLines]
  simp [Text.ofLines]

def Ended (line : String) : Prop := Text.dropEnd? "\\" line = none

theorem ended_of_last {line : String} (last : line.toList.getLast? ≠ some '\\') : Ended line := by
  cases found : Text.dropEnd? "\\" line with
  | none => exact found
  | some start =>
    obtain rfl := Text.dropEnd?_eq_some found
    simp at last

theorem ended_escape {path : String} (writable : Writable path) : Ended ("  " ++ escape path) := by
  apply ended_of_last
  have last := Chars.getLast?_escaped writable.clean
  rw [String.toList_append, toList_escape, List.getLast?_append]
  cases found : (path.toList.flatMap Chars.escapeSpace).getLast? with
  | none => decide
  | some c => simpa [found] using last

theorem ended_colon (start : String) : Ended (start ++ ":") := by
  apply ended_of_last
  simp

theorem joinContinued_of_ended {lines : List String} (each : ∀ line ∈ lines, Ended line) :
    joinContinued lines = lines := by
  induction lines with
  | nil => rfl
  | cons line rest ih =>
    rw [List.forall_mem_cons] at each
    have whole : Text.dropEnd? "\\" line = none := each.1
    rw [joinContinued, whole, ih each.2]

/-- What stands behind the colon of the first rule, once its lines are joined. -/
def prerequisitesText (inputs : List String) : String := String.join (inputs.map fun input => "   " ++ escape input)

theorem prerequisitesText_cons (input : String) (rest : List String) :
    prerequisitesText (input :: rest) = " " ++ ("  " ++ escape input ++ prerequisitesText rest) := by
  apply String.toList_inj.mp
  simp [prerequisitesText]

theorem joinContinued_ruleLines {start : String} {inputs : List String} (ended : Ended start)
    (writable : ∀ input ∈ inputs, Writable input) (more : List String) :
    joinContinued (ruleLines start inputs ++ more) = (start ++ prerequisitesText inputs) :: joinContinued more := by
  induction inputs generalizing start with
  | nil =>
    have whole : Text.dropEnd? "\\" start = none := ended
    simp [ruleLines, prerequisitesText, joinContinued, whole]
  | cons input rest ih =>
    rw [List.forall_mem_cons] at writable
    have later := ih (ended_escape writable.1) writable.2
    have continued : start ++ " \\" = start ++ " " ++ "\\" := by
      rw [String.append_assoc]
      rfl
    rw [ruleLines, List.cons_append, joinContinued, continued, Text.dropEnd?_append, later, prerequisitesText_cons]
    simp only [String.append_assoc]

theorem splitUnescaped_prerequisites {inputs : List String} (writable : ∀ input ∈ inputs, Writable input) :
    Chars.splitUnescaped false (prerequisitesText inputs).toList =
      [] :: inputs.flatMap fun input => [[], [], (escape input).toList] := by
  induction inputs with
  | nil => rfl
  | cons input rest ih =>
    rw [List.forall_mem_cons] at writable
    have text : (prerequisitesText (input :: rest)).toList = ' ' :: ' ' :: ' ' ::
        (input.toList.flatMap Chars.escapeSpace ++ (prerequisitesText rest).toList) := by
      simp [prerequisitesText_cons, toList_escape]
    rw [text]
    simp [Chars.splitUnescaped, Chars.splitUnescaped_append writable.1.clean, ih writable.2, toList_escape]

theorem paths_prerequisites {inputs : List String} (writable : ∀ input ∈ inputs, Writable input) {rest : String}
    (spaced : (prerequisitesText inputs).toList = ' ' :: rest.toList) : paths rest = inputs := by
  have pieces := splitUnescaped_prerequisites writable
  rw [spaced] at pieces
  simp only [Chars.splitUnescaped, and_self, if_true, List.cons.injEq, true_and] at pieces
  rw [paths, pieces]
  clear pieces spaced
  induction inputs with
  | nil => rfl
  | cons input others ih =>
    rw [List.forall_mem_cons] at writable
    simp [escape_ne_empty writable.1, unescape_escape writable.1, ih writable.2]

theorem uncut_empty (target : String) (parts : String × String) :
    Text.splitOnce ": " (escape target ++ ":") ≠ some parts := by
  intro found
  have inside : [':', ' '] <:+: target.toList.flatMap Chars.escapeSpace ++ [':'] := by
    obtain ⟨before, after⟩ := parts
    obtain ⟨whole, _⟩ := Text.splitOnce_eq_some.mp found
    refine ⟨before.toList, after.toList, ?_⟩
    have chars := congrArg String.toList whole
    simpa [toList_escape] using chars.symm
  rcases List.infix_concat_iff.mp inside with last | within
  · obtain ⟨front, split⟩ := last
    have colon := congrArg List.getLast? split
    simp at colon
  · exact Chars.colon_space_not_infix target.toList within

theorem ofLine?_rule {target : String} {inputs : List String} (named : Writable target)
    (writable : ∀ input ∈ inputs, Writable input) :
    ofLine? (escape target ++ ":" ++ prerequisitesText inputs) = some ⟨target, inputs⟩ := by
  cases inputs with
  | nil =>
    have whole : Text.splitOnce ": " (escape target ++ ":") = none := by
      cases found : Text.splitOnce ": " (escape target ++ ":") with
      | none => rfl
      | some parts => exact absurd found (uncut_empty target parts)
    simp [ofLine?, prerequisitesText, whole, Text.dropEnd?_append, unescape_escape named]
  | cons input rest =>
    have spaced : (prerequisitesText (input :: rest)).toList =
        ' ' :: ("  " ++ escape input ++ prerequisitesText rest).toList := by
      rw [prerequisitesText_cons, String.toList_append]
      rfl
    have cut : Text.splitOnce ": " (escape target ++ ":" ++ prerequisitesText (input :: rest)) =
        some (escape target, "  " ++ escape input ++ prerequisitesText rest) := by
      rw [Text.splitOnce_eq_some, Text.cutAtFirst_iff, String.toList_append, String.toList_append, spaced]
      have first := Chars.cutAtFirst_append (by decide) (Chars.colon_space_not_infix target.toList)
        ("  " ++ escape input ++ prerequisitesText rest).toList
      rw [← toList_escape] at first
      simpa using first
    simp [ofLine?, cut, unescape_escape named, paths_prerequisites writable spaced]

theorem ruleLines_oneLine {start : String} {inputs : List String} (begun : Text.OneLine start)
    (writable : ∀ input ∈ inputs, Writable input) : ∀ line ∈ ruleLines start inputs, Text.OneLine line := by
  induction inputs generalizing start with
  | nil => simpa [ruleLines] using begun
  | cons input rest ih =>
    rw [List.forall_mem_cons] at writable
    have next : Text.OneLine ("  " ++ escape input) :=
      (Text.oneLine_append _ _).mpr ⟨by decide, escape_oneLine writable.1⟩
    exact List.forall_mem_cons.mpr ⟨(Text.oneLine_append _ _).mpr ⟨begun, by decide⟩, ih next writable.2⟩

theorem lines_oneLine {dependencies : Dependencies} (named : Writable dependencies.target)
    (writable : ∀ input ∈ dependencies.inputs, Writable input) : ∀ line ∈ dependencies.lines, Text.OneLine line := by
  rw [lines, List.forall_mem_append]
  constructor
  · exact ruleLines_oneLine ((Text.oneLine_append _ _).mpr ⟨escape_oneLine named, by decide⟩) writable
  · intro line member
    obtain ⟨input, inside, written⟩ := List.mem_flatMap.mp member
    rcases List.mem_pair.mp written with rfl | rfl
    · decide
    · exact (Text.oneLine_append _ _).mpr ⟨escape_oneLine (writable input inside), by decide⟩

theorem emptyLines_ended (inputs : List String) : ∀ line ∈ inputs.flatMap emptyLines ++ [""], Ended line := by
  have blank : Ended "" := ended_of_last (by decide)
  intro line member
  rcases List.mem_append.mp member with inside | last
  · obtain ⟨input, _, written⟩ := List.mem_flatMap.mp inside
    rcases List.mem_pair.mp written with rfl | rfl
    · exact blank
    · exact ended_colon (escape input)
  · exact List.mem_singleton.mp last ▸ blank

theorem filter_emptyLines (inputs : List String) :
    (inputs.flatMap emptyLines ++ [""]).filter (· ≠ "") = inputs.map fun input => escape input ++ ":" := by
  induction inputs with
  | nil => rfl
  | cons input rest ih => simpa [emptyLines] using ih

theorem joinContinued_lines {dependencies : Dependencies} (named : Writable dependencies.target)
    (writable : ∀ input ∈ dependencies.inputs, Writable input) :
    (joinContinued (Text.linesOf dependencies.text)).filter (· ≠ "") =
      (escape dependencies.target ++ ":" ++ prerequisitesText dependencies.inputs) ::
        dependencies.inputs.map fun input => escape input ++ ":" := by
  rw [text_eq, Text.linesOf_ofLines (lines_oneLine named writable), lines, List.append_assoc,
    joinContinued_ruleLines (ended_colon _) writable, joinContinued_of_ended (emptyLines_ended _),
    List.filter_cons_of_pos (by simp), filter_emptyLines]

theorem mapM_emptyRules {inputs : List String} (writable : ∀ input ∈ inputs, Writable input) :
    (inputs.map fun input => escape input ++ ":").mapM ofLine? = some (inputs.map fun input => ⟨input, []⟩) := by
  induction inputs with
  | nil => rfl
  | cons input rest ih =>
    rw [List.forall_mem_cons] at writable
    have rule : ofLine? (escape input ++ ":") = some ⟨input, []⟩ := by
      simpa [prerequisitesText] using ofLine?_rule writable.1 (List.forall_mem_nil _)
    simp [List.mapM_cons, rule, ih writable.2]

theorem readAll?_text {dependencies : Dependencies} (named : Writable dependencies.target)
    (writable : ∀ input ∈ dependencies.inputs, Writable input) :
    readAll? dependencies.text =
      some (⟨dependencies.target, dependencies.inputs⟩ :: dependencies.inputs.map fun input => ⟨input, []⟩) := by
  rw [readAll?, joinContinued_lines named writable, List.mapM_cons, ofLine?_rule named writable, mapM_emptyRules writable]
  rfl

/-- A manifest is read back as it was meant: its first rule makes the target depend on the inputs, in their order, and an
empty rule for each input follows, in the same order. So the texts of two manifests differ as soon as the manifests do. -/
theorem text_reads_back {dependencies : Dependencies} (named : Writable dependencies.target)
    (writable : ∀ input ∈ dependencies.inputs, Writable input) :
    readAll? dependencies.text =
      some (⟨dependencies.target, dependencies.inputs⟩ :: dependencies.inputs.map fun input => ⟨input, []⟩) ∧
    ∀ other : Dependencies, Writable other.target → (∀ input ∈ other.inputs, Writable input) →
      other.text = dependencies.text → other = dependencies := by
  have rules := readAll?_text named writable
  refine ⟨rules, ?_⟩
  intro other calledToo writableToo same
  rw [← same, readAll?_text calledToo writableToo, Option.some.injEq, List.cons.injEq, MakeRule.mk.injEq] at rules
  obtain ⟨⟨target, inputs⟩, _⟩ := rules
  cases other
  cases dependencies
  exact congrArg₂ Dependencies.mk target inputs

/-- The target has a colon before an escaped space, and the inputs have spaces at their ends. -/
theorem text_reads_back_spaces :
    (Dependencies.mk "a: b.c" ["regs .def ", " x:"]).text =
        "a:\\ b.c: \\\n  regs\\ .def\\  \\\n  \\ x:\n\nregs\\ .def\\ :\n\n\\ x::\n" ∧
      readAll? (Dependencies.mk "a: b.c" ["regs .def ", " x:"]).text =
        some [⟨"a: b.c", ["regs .def ", " x:"]⟩, ⟨"regs .def ", []⟩, ⟨" x:", []⟩] ∧
      ∀ other : Dependencies, Writable other.target → (∀ input ∈ other.inputs, Writable input) →
        other.text = (Dependencies.mk "a: b.c" ["regs .def ", " x:"]).text →
          other = ⟨"a: b.c", ["regs .def ", " x:"]⟩ := by
  have first : Writable "regs .def " := ⟨by decide, by decide, by decide⟩
  have second : Writable " x:" := ⟨by decide, by decide, by decide⟩
  have each : ∀ input ∈ ["regs .def ", " x:"], Writable input :=
    List.forall_mem_cons.mpr ⟨first, List.forall_mem_singleton.mpr second⟩
  refine ⟨by decide, ?_⟩
  exact @text_reads_back ⟨"a: b.c", ["regs .def ", " x:"]⟩ ⟨by decide, by decide, by decide⟩ each

end Dependencies
end RegisterCatalog
