import Mathlib.Data.Finset.Card
import RegisterCatalog.Proofs.MoreDefinitions
import RegisterCatalog.Proofs.ReadAnswers
import RegisterCatalog.Proofs.WriteOrder

/-! The headers of a device are all read or none. Each is taken from the first place that has it, and of several
definitions of a name the last one counts, in whichever header it stands. A header that is nowhere to be found leaves
nothing, also of those before it. -/

namespace RegisterCatalog

namespace MacroTable

/-- The last line that defines a name defines it so. -/
def LastDefinition (lines : List String) (name : String) (definition : Definition) : Prop :=
  ∃ before line after, lines = before ++ line :: after ∧ Definition.ofLine? line = some (name, definition) ∧
    ∀ other ∈ after, ∀ earlier, Definition.ofLine? other ≠ some (name, earlier)

def definedNames (lines : List String) : List String := (lines.filterMap Definition.ofLine?).map Prod.fst

variable {lines : List String} {line name : String} {definition : Definition}

theorem lastDefinition_concat :
    LastDefinition (lines ++ [line]) name definition ↔ Definition.ofLine? line = some (name, definition) ∨
      (∀ other, Definition.ofLine? line ≠ some (name, other)) ∧ LastDefinition lines name definition := by
  constructor
  · rintro ⟨before, found, after, split, defines, absent⟩
    rcases List.eq_nil_or_concat after with rfl | ⟨rest, last, rfl⟩
    · obtain ⟨_, same⟩ := List.append_inj' split rfl
      cases same
      exact .inl defines
    · have split : lines ++ [line] = (before ++ found :: rest) ++ [last] := by simpa using split
      obtain ⟨rfl, same⟩ := List.append_inj' split rfl
      cases same
      rw [List.concat_eq_append, List.forall_mem_append, List.forall_mem_singleton] at absent
      exact .inr ⟨absent.2, before, found, rest, rfl, defines, absent.1⟩
  · rintro (defines | ⟨other, before, found, after, rfl, defines, absent⟩)
    · exact ⟨lines, line, [], rfl, defines, by simp⟩
    · refine ⟨before, found, after ++ [line], by simp, defines, ?_⟩
      rw [List.forall_mem_append, List.forall_mem_singleton]
      exact ⟨absent, other⟩

theorem get?_addLine (table : MacroTable) (line name : String) :
    (table.addLine line).get? name = match Definition.ofLine? line with
      | some (made, definition) => if made = name then some definition else table.get? name
      | none => table.get? name := by
  unfold addLine
  cases Definition.ofLine? line with
  | none => rfl
  | some made => exact get?_insert table made.1 name made.2

theorem get?_empty (name : String) : get? {} name = none := by simp [get?]

theorem get?_eq_some_iff : (lines.foldl addLine {}).get? name = some definition ↔ LastDefinition lines name definition := by
  induction lines using List.reverseRecOn with
  | nil => simp [get?_empty, LastDefinition]
  | append_singleton lines line ih =>
    rw [List.foldl_append, List.foldl_cons, List.foldl_nil, get?_addLine, lastDefinition_concat, ← ih]
    cases Definition.ofLine? line with
    | none => simp
    | some made =>
      obtain ⟨made, new⟩ := made
      by_cases same : made = name
      · subst same
        simp
      · simp [same]

theorem definedNames_concat (lines : List String) (line : String) :
    definedNames (lines ++ [line]) = definedNames lines ++ ((Definition.ofLine? line).map Prod.fst).toList := by
  rw [definedNames, definedNames, List.filterMap_append, List.map_append]
  cases made : Definition.ofLine? line <;> simp [made]

theorem contains_iff_mem : (lines.foldl addLine {}).contains name ↔ name ∈ definedNames lines := by
  unfold contains
  induction lines using List.reverseRecOn with
  | nil => simp [get?_empty, definedNames]
  | append_singleton lines line ih =>
    rw [List.foldl_append, List.foldl_cons, List.foldl_nil, get?_addLine, definedNames_concat, List.mem_append, ← ih]
    cases Definition.ofLine? line with
    | none => simp
    | some made =>
      by_cases same : made.1 = name
      · simp [same]
      · simp [same, Ne.symm same]

theorem get?_eq_none_iff :
    (lines.foldl addLine {}).get? name = none ↔ ∀ line ∈ lines, ∀ definition, Definition.ofLine? line ≠ some (name, definition) := by
  rw [← Option.not_isSome_iff_eq_none, ← contains, contains_iff_mem, definedNames]
  constructor
  · intro absent line member definition made
    exact absent (List.mem_map.mpr ⟨_, List.mem_filterMap.mpr ⟨line, member, made⟩, rfl⟩)
  · intro absent defined
    obtain ⟨⟨_, definition⟩, found, rfl⟩ := List.mem_map.mp defined
    obtain ⟨line, member, made⟩ := List.mem_filterMap.mp found
    exact absent line member definition made

theorem size_addLine (table : MacroTable) (line : String) :
    (table.addLine line).size = match Definition.ofLine? line with
      | some (made, _) => if table.contains made then table.size else table.size + 1
      | none => table.size := by
  unfold addLine
  cases Definition.ofLine? line with
  | none => rfl
  | some made => simp [size, contains, get?, Std.TreeMap.size_insert]

theorem size_eq_card (lines : List String) : (lines.foldl addLine {}).size = (definedNames lines).toFinset.card := by
  induction lines using List.reverseRecOn with
  | nil => rfl
  | append_singleton lines line ih =>
    rw [List.foldl_append, List.foldl_cons, List.foldl_nil, definedNames_concat, List.toFinset_append, size_addLine, ih]
    cases Definition.ofLine? line with
    | none => simp
    | some made =>
      have single : ((some made).map Prod.fst).toList.toFinset = {made.1} := rfl
      rw [single, Finset.union_comm, ← Finset.insert_eq]
      dsimp only
      by_cases known : made.1 ∈ definedNames lines
      · rw [if_pos (contains_iff_mem.mpr known), Finset.insert_eq_of_mem (List.mem_toFinset.mpr known)]
      · rw [if_neg (mt contains_iff_mem.mp known), Finset.card_insert_of_notMem (mt List.mem_toFinset.mp known)]

end MacroTable

/-- A header as it was read. -/
structure ReadHeader where
  path : String
  text : String

namespace LoadedHeaders
open Job

/-- The places of a header in the order in which they are tried: the header directory below each search root, and then
the display directory below each. -/
def places (settings : Settings) (driversRoot : String) (device : Device) (file : String) : List String :=
  let below (directory : String) : List String :=
    settings.searchRoots.map fun root => Path.join (Path.join (Path.join driversRoot root) directory) file
  below device.headerDir ++ (device.displayDir?.map below).getD []

def IsChosen (tree : FileTree) (places : List String) (path : String) : Prop :=
  ∃ before after, places = before ++ path :: after ∧ tree.isFile path ∧ ∀ other ∈ before, ¬ tree.isFile other

def IsMissing (tree : FileTree) (places : List String) : Prop := ∀ path ∈ places, ¬ tree.isFile path

def AreRead (tree : FileTree) (places : String → List String) : List String → List ReadHeader → Prop :=
  List.Forall₂ fun file header => IsChosen tree (places file) header.path ∧ tree.readText header.path = .ok header.text

def linesOf (headers : List ReadHeader) : List String := headers.flatMap fun header => Text.lines header.text

def extend (loaded : LoadedHeaders) (headers : List ReadHeader) : LoadedHeaders :=
  { table := (linesOf headers).foldl MacroTable.addLine loaded.table,
    sources := loaded.sources ++ headers.map ReadHeader.path }

variable {settings : Settings} {driversRoot : String} {device : Device} {tree : FileTree} {loaded : LoadedHeaders}
  {file path : String} {rest : List String}

theorem candidates_eq_places (settings : Settings) (driversRoot : String) (device : Device) (file : String) :
    candidates settings driversRoot device file = places settings driversRoot device file := by
  unfold candidates places
  cases device.displayDir? <;> simp

theorem find?_eq_some_iff_isChosen {paths : List String} : paths.find? tree.isFile = some path ↔ IsChosen tree paths path := by
  rw [List.find?_eq_some_iff_append, IsChosen]
  simp only [Bool.not_eq_true', Bool.not_eq_true]
  grind

theorem find?_eq_none_iff_isMissing {paths : List String} : paths.find? tree.isFile = none ↔ IsMissing tree paths :=
  List.find?_eq_none

theorem answer_firstFile? (paths : List String) (tree : FileTree) :
    (firstFile? paths).answer tree = .ok (paths.find? tree.isFile) := by
  induction paths with
  | nil => rfl
  | cons path others ih =>
    rw [firstFile?, (reads_send (show (FileRequest.isFile path).OnlyReads from trivial)).answer_bind]
    change (Except.ok (tree.isFile path) >>= _ : Except Failure (Option String)) = _
    rw [List.find?_cons]
    cases tree.isFile path with
    | true => rfl
    | false => exact ih

theorem answer_loadAll_missing (missing : IsMissing tree (places settings driversRoot device file)) :
    (loadAll settings driversRoot device loaded (file :: rest)).answer tree = .ok {} := by
  rw [loadAll, (reads_firstFile? _).answer_bind, answer_firstFile?, candidates_eq_places,
    find?_eq_none_iff_isMissing.mpr missing]
  rfl

theorem extend_single (loaded : LoadedHeaders) (path text : String) :
    loaded.extend [⟨path, text⟩] = { table := loaded.table.addText text, sources := loaded.sources ++ [path] } := by
  simp [extend, linesOf, MacroTable.addText]

theorem extend_cons (loaded : LoadedHeaders) (header : ReadHeader) (headers : List ReadHeader) :
    loaded.extend (header :: headers) = (loaded.extend [header]).extend headers := by
  simp [extend, linesOf]

theorem answer_loadAll_chosen (chosen : IsChosen tree (places settings driversRoot device file) path) :
    (loadAll settings driversRoot device loaded (file :: rest)).answer tree =
      (tree.readText path).mapError (.access path ·) >>= fun text =>
        (loadAll settings driversRoot device (loaded.extend [⟨path, text⟩]) rest).answer tree := by
  rw [loadAll, (reads_firstFile? _).answer_bind, answer_firstFile?, candidates_eq_places,
    find?_eq_some_iff_isChosen.mpr chosen]
  change (log _ >>= _).answer tree = _
  rw [(reads_log _).answer_bind]
  change (readText path >>= _).answer tree = _
  rw [(reads_readText path).answer_bind, answer_readText]
  simp only [extend_single]

theorem answer_loadAll_append {files : List String} {headers : List ReadHeader}
    (read : AreRead tree (places settings driversRoot device) files headers) (loaded : LoadedHeaders) (rest : List String) :
    (loadAll settings driversRoot device loaded (files ++ rest)).answer tree =
      (loadAll settings driversRoot device (loaded.extend headers) rest).answer tree := by
  induction read generalizing loaded with
  | nil => simp [extend, linesOf]
  | @cons file header files headers here _ ih =>
    rw [List.cons_append, answer_loadAll_chosen here.1, here.2, extend_cons]
    exact ih _

/-- The loading of the files comes to its end, to a file that is missing, or to one that cannot be read. -/
theorem course_of_files (tree : FileTree) (places : String → List String) (files : List String) :
    (∃ headers, AreRead tree places files headers) ∨
      ∃ earlier file later headers, files = earlier ++ file :: later ∧ AreRead tree places earlier headers ∧
        (IsMissing tree (places file) ∨
          ∃ path fault, IsChosen tree (places file) path ∧ tree.readText path = .error fault) := by
  induction files with
  | nil => exact .inl ⟨[], .nil⟩
  | cons file rest ih =>
    cases found : (places file).find? tree.isFile with
    | none => exact .inr ⟨[], file, rest, [], rfl, .nil, .inl (find?_eq_none_iff_isMissing.mp found)⟩
    | some path =>
      have chosen := find?_eq_some_iff_isChosen.mp found
      cases read : tree.readText path with
      | error fault => exact .inr ⟨[], file, rest, [], rfl, .nil, .inr ⟨path, fault, chosen, read⟩⟩
      | ok text =>
        rcases ih with ⟨headers, all⟩ | ⟨earlier, other, later, headers, rfl, before, stopped⟩
        · exact .inl ⟨⟨path, text⟩ :: headers, .cons ⟨chosen, read⟩ all⟩
        · exact .inr ⟨file :: earlier, other, later, ⟨path, text⟩ :: headers, rfl, .cons ⟨chosen, read⟩ before, stopped⟩

/-- Loading the headers of a device gives all of them or none. Each is read at the first of its places that has a file.
If all can be read, a name has its last definition on the lines of all headers, and the table counts the names that
are defined. The first header that is missing leaves neither a definition nor a source; one that is there but cannot
be read, if no earlier one is missing, is a failure. -/
theorem load_all_or_nothing (settings : Settings) (driversRoot : String) (device : Device) (tree : FileTree) :
    (∀ headers, AreRead tree (places settings driversRoot device) settings.headerFiles headers →
      ∃ loaded, (load settings driversRoot device).answer tree = .ok loaded ∧
        loaded.sources = headers.map ReadHeader.path ∧
        (∀ name definition, loaded.table.get? name = some definition ↔
          MacroTable.LastDefinition (linesOf headers) name definition) ∧
        (∀ name, loaded.table.get? name = none ↔
          ∀ line ∈ linesOf headers, ∀ definition, Definition.ofLine? line ≠ some (name, definition)) ∧
        loaded.table.size = (MacroTable.definedNames (linesOf headers)).toFinset.card) ∧
    (∀ earlier file later headers, settings.headerFiles = earlier ++ file :: later →
      AreRead tree (places settings driversRoot device) earlier headers →
      (IsMissing tree (places settings driversRoot device file) →
        (load settings driversRoot device).answer tree = .ok { table := {}, sources := [] }) ∧
      ∀ path fault, IsChosen tree (places settings driversRoot device file) path → tree.readText path = .error fault →
        (load settings driversRoot device).answer tree = .error (.access path fault)) ∧
    ((∃ headers, AreRead tree (places settings driversRoot device) settings.headerFiles headers) ∨
      ∃ earlier file later headers, settings.headerFiles = earlier ++ file :: later ∧
        AreRead tree (places settings driversRoot device) earlier headers ∧
        (IsMissing tree (places settings driversRoot device file) ∨
          ∃ path fault, IsChosen tree (places settings driversRoot device file) path ∧ tree.readText path = .error fault)) := by
  refine ⟨?_, ?_, course_of_files tree _ _⟩
  · intro headers read
    refine ⟨extend {} headers, ?_, rfl, fun _ _ => MacroTable.get?_eq_some_iff, fun _ => MacroTable.get?_eq_none_iff,
      MacroTable.size_eq_card _⟩
    have whole := answer_loadAll_append read {} []
    rw [List.append_nil] at whole
    exact whole
  · intro earlier file later headers split read
    rw [load, split, answer_loadAll_append read]
    refine ⟨answer_loadAll_missing, ?_⟩
    intro path fault chosen unreadable
    rw [answer_loadAll_chosen chosen, unreadable]
    rfl

/-- Headers below different search roots and directories. One is no text. -/
def scatteredHeaders : FileTree :=
  [(["drivers"], .directory), (["drivers", "a"], .directory), (["drivers", "a", "d"], .directory),
    (["drivers", "a", "d", "z.h"], .file (.bytes [255])), (["drivers", "a", "e"], .directory),
    (["drivers", "a", "e", "x.h"], .file (.text "#define LW_A 0\n")),
    (["drivers", "a", "e", "y.h"], .file (.text "#define LW_A 2\n#define LW_B 3\n")), (["drivers", "b"], .directory),
    (["drivers", "b", "d"], .directory),
    (["drivers", "b", "d", "x.h"], .file (.text "#define LW_A 1\n"))].foldl (fun tree (names, node) => tree.put names node) {}

def withDisplay : Device := { name := "a", headerDir := "d", displayDir? := some "e" }

theorem load_all_or_nothing_scattered :
    (∃ loaded, (load { searchRoots := ["a", "b"], headerFiles := ["x.h", "y.h"] } "drivers" withDisplay).answer scatteredHeaders =
        .ok loaded ∧ loaded.sources = ["drivers/b/d/x.h", "drivers/a/e/y.h"] ∧
        loaded.table.get? "LW_A" = some ⟨"2", "2", 0⟩ ∧ loaded.table.size = 2) ∧
      (load { searchRoots := ["a", "b"], headerFiles := ["x.h", "w.h"] } "drivers" withDisplay).answer scatteredHeaders =
        .ok { table := {}, sources := [] } ∧
      (load { searchRoots := ["a", "b"], headerFiles := ["x.h", "z.h"] } "drivers" withDisplay).answer scatteredHeaders =
        .error (.access "drivers/a/d/z.h" .notText) := by
  have chosen {files : List String} {file path : String}
      (found : (places { searchRoots := ["a", "b"], headerFiles := files } "drivers" withDisplay file).find?
        scatteredHeaders.isFile = some path) :
      IsChosen scatteredHeaders (places { searchRoots := ["a", "b"], headerFiles := files } "drivers" withDisplay file) path :=
    find?_eq_some_iff_isChosen.mp found
  have first : scatteredHeaders.readText "drivers/b/d/x.h" = .ok "#define LW_A 1\n" := by decide +kernel
  refine ⟨?_, ?_, ?_⟩
  · have second : scatteredHeaders.readText "drivers/a/e/y.h" = .ok "#define LW_A 2\n#define LW_B 3\n" := by decide +kernel
    obtain ⟨loaded, done, sources, last, _, size⟩ :=
      (load_all_or_nothing { searchRoots := ["a", "b"], headerFiles := ["x.h", "y.h"] } "drivers" withDisplay scatteredHeaders).1
        [⟨"drivers/b/d/x.h", "#define LW_A 1\n"⟩, ⟨"drivers/a/e/y.h", "#define LW_A 2\n#define LW_B 3\n"⟩]
        (.cons ⟨chosen (by decide +kernel), first⟩ (.cons ⟨chosen (by decide +kernel), second⟩ .nil))
    have other : Definition.ofLine? "#define LW_B 3" = some ("LW_B", ⟨"3", "3", 0⟩) := by decide +kernel
    refine ⟨loaded, done, sources, (last _ _).mpr ⟨["#define LW_A 1"], "#define LW_A 2", ["#define LW_B 3"], ?_, ?_, ?_⟩, ?_⟩
    · decide +kernel
    · decide +kernel
    · simp [other]
    · exact size.trans (by decide +kernel)
  · refine ((load_all_or_nothing { searchRoots := ["a", "b"], headerFiles := ["x.h", "w.h"] } "drivers" withDisplay
      scatteredHeaders).2.1 ["x.h"] "w.h" [] [⟨"drivers/b/d/x.h", _⟩] rfl (.cons ⟨chosen (by decide +kernel), first⟩ .nil)).1 ?_
    exact find?_eq_none_iff_isMissing.mp (by decide +kernel)
  · exact ((load_all_or_nothing { searchRoots := ["a", "b"], headerFiles := ["x.h", "z.h"] } "drivers" withDisplay
      scatteredHeaders).2.1 ["x.h"] "z.h" [] [⟨"drivers/b/d/x.h", _⟩] rfl (.cons ⟨chosen (by decide +kernel), first⟩ .nil)).2 _ _
      (chosen (by decide +kernel)) (by decide +kernel)

end LoadedHeaders
end RegisterCatalog
