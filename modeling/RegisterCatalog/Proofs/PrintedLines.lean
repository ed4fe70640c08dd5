import Std.Data.String.ToNat
import RegisterCatalog.Artifact.DeviceTable
import RegisterCatalog.Proofs.Conditions
import RegisterCatalog.Proofs.Hexadecimal

/-! The lines of printed tables. A text that is put together from texts without line feeds has exactly the
lines that were written; and of these, only the statements for the devices that use a table register it. -/

namespace RegisterCatalog.Text

/-- The lines of a text: what stands before, between and after its line feeds. -/
def linesOf (text : String) : List String :=
  (text.toList.splitOn '\n').map String.ofList

/-- A text without line feeds. -/
def OneLine (text : String) : Prop := '\n' ∉ text.toList

instance (text : String) : Decidable (OneLine text) := inferInstanceAs (Decidable ('\n' ∉ text.toList))

@[simp] theorem oneLine_append (first second : String) : OneLine (first ++ second) ↔ OneLine first ∧ OneLine second := by
  simp [OneLine]

theorem oneLine_intercalate {separator : String} {texts : List String} (bounded : OneLine separator)
    (each : ∀ text ∈ texts, OneLine text) : OneLine (String.intercalate separator texts) := by
  induction texts with
  | nil => simp [OneLine]
  | cons first rest ih =>
    rw [List.forall_mem_cons] at each
    cases rest with
    | nil => simpa using each.1
    | cons second later =>
      rw [String.intercalate_cons_cons]
      simp [each.1, bounded, ih each.2]

theorem linesOf_ofLines {lines : List String} (each : ∀ line ∈ lines, OneLine line) :
    linesOf (ofLines lines) = lines ++ [""] := by
  induction lines with
  | nil => rfl
  | cons line rest ih =>
    rw [List.forall_mem_cons] at each
    have text : (ofLines (line :: rest)).toList = line.toList ++ '\n' :: (ofLines rest).toList := by
      simp [ofLines]
    have others := ih each.2
    unfold linesOf at others ⊢
    rw [text, List.splitOn_append_cons_self, Condition.splitOn_single each.1, List.map_append, others]
    simp

theorem oneLine_identifier {name : String} (identifier : Condition.isIdentifier name.toList) : OneLine name := by
  intro feed
  exact absurd (Condition.isWordChar_of_identifier identifier '\n' feed) (by decide)

theorem oneLine_toString (number : Nat) : OneLine (toString number) := by
  rw [OneLine, Nat.toString_eq_ofList_toDigits, String.toList_ofList]
  intro feed
  exact absurd (Nat.isDigit_of_mem_toDigits (by decide) (by decide) feed) (by decide)

theorem oneLine_hexWord (word : UInt32) : OneLine (hexWord word) := by
  have digits : ∀ c ∈ wordDigits word, c ≠ '\n' := forall_wordDigits (by decide) word
  rw [OneLine, toList_hexWord, List.mem_cons, List.mem_cons, not_or, not_or]
  exact ⟨by decide, by decide, fun feed => digits _ feed rfl⟩

theorem head?_append {start : String} {c : Char} (rest : String) (first : start.toList.head? = some c) :
    (start ++ rest).toList.head? = some c := by
  rw [String.toList_append, List.head?_append, first]
  rfl

end RegisterCatalog.Text

namespace RegisterCatalog
open Text

theorem Slot.index_oneLine (slot : Slot) : OneLine slot.index := by
  have numbers (tuple : List Nat) : ∀ text ∈ tuple.map toString, OneLine text :=
    List.forall_mem_map.mpr fun number _ => oneLine_toString number
  have each : ∀ argument ∈ slot.arguments, OneLine argument := by
    cases slot with
    | element tuple => exact numbers tuple
    | size ordinal => exact List.forall_mem_cons.mpr ⟨by decide, numbers [ordinal]⟩
    | privilege tuple => exact List.forall_mem_cons.mpr ⟨by decide, numbers tuple⟩
  unfold index
  rw [oneLine_append, oneLine_append]
  exact ⟨⟨by decide, oneLine_intercalate (by decide) each⟩, by decide⟩

theorem Access.constant_oneLine (access : Access) : OneLine access.constant := by
  cases access <;> decide

def Device.statementFor (owner device : Device) : String :=
  s!"LWHAL_REGISTER_TABLE({device.name}, {owner.tableSymbol});"

/-- Whether a line of a table registers it for a device. -/
def isRegistration (line : String) : Bool := startsWith "LWHAL_REGISTER_TABLE(" line

theorem isRegistration_of_start {start : String} (rest : String) (other : start.toList.head?.any (· != 'L')) :
    isRegistration (start ++ rest) = false := by
  rw [Bool.eq_false_iff]
  intro registers
  obtain ⟨more, same⟩ := List.isPrefixOf_iff_prefix.mp registers
  rw [String.toList_append] at same
  cases found : start.toList with
  | nil => simp [found] at other
  | cons first others =>
    rw [found] at same other
    obtain rfl : 'L' = first := (List.cons.inj same).1
    simp at other

theorem Device.tableSymbol_oneLine (device : Device) (name : OneLine device.name) : OneLine device.tableSymbol :=
  (oneLine_append _ _).mpr ⟨by decide, name⟩

def Alternative.texts (alternative : Alternative) : List String :=
  alternative.expression :: alternative.domain :: (alternative.guard?.map Guard.text).toList ++ alternative.offset?.toList

/-- The texts of a row that come from outside. -/
def TableRow.texts (row : TableRow) : List String :=
  row.symbol :: row.capability?.toList ++ row.alternatives.flatMap Alternative.texts

namespace TableRow

variable {row : TableRow}

theorem content_oneLine {alternative : Alternative} (capability : ∀ text ∈ row.capability?, OneLine text)
    (texts : ∀ text ∈ alternative.texts, OneLine text) : OneLine (row.content alternative) := by
  simp only [Alternative.texts, List.cons_append, List.forall_mem_cons, List.forall_mem_append] at texts
  obtain ⟨expression, domain, _, offset⟩ := texts
  have capable : OneLine (row.capability?.getD "LWHAL_CAP_NONE") := by
    cases given : row.capability? with
    | none => decide
    | some text => exact capability text given
  have added : OneLine (alternative.offset?.getD "0") := by
    cases given : alternative.offset? with
    | none => decide
    | some text => exact offset text (by simp [given])
  have parts : ∀ part ∈ [hexWord row.id, row.slot.index, "LWHAL_DOMAIN_" ++ alternative.domain, row.access.constant,
      row.capability?.getD "LWHAL_CAP_NONE", alternative.expression, alternative.offset?.getD "0"], OneLine part := by
    simp only [List.forall_mem_cons, oneLine_append]
    exact ⟨oneLine_hexWord row.id, row.slot.index_oneLine, ⟨by decide, domain⟩, row.access.constant_oneLine, capable,
      expression, added, by simp⟩
  unfold content
  rw [oneLine_append, oneLine_append]
  exact ⟨⟨by decide, oneLine_intercalate (by decide) parts⟩, by decide⟩

/-- A chain has no other lines than its conditions, its contents and the two marks. -/
theorem chain_forall {good : String → Prop} {alternatives : List Alternative} {opened : Bool}
    (contents : ∀ alternative ∈ alternatives, good (row.content alternative))
    (conditions : ∀ alternative ∈ alternatives, ∀ guard ∈ alternative.guard?,
      good ("#if " ++ guard.text) ∧ good ("#elif " ++ guard.text))
    (marks : good "#else" ∧ good "#endif") : ∀ line ∈ row.chain opened alternatives, good line := by
  induction alternatives generalizing opened with
  | nil =>
    rw [chain]
    cases opened <;> simp [marks]
  | cons alternative rest ih =>
    rw [List.forall_mem_cons] at contents conditions
    rw [chain]
    split
    next guard guarded =>
      rw [List.forall_mem_cons, List.forall_mem_cons]
      refine ⟨?_, contents.1, ih contents.2 conditions.2⟩
      split
      · exact (conditions.1 guard guarded).2
      · exact (conditions.1 guard guarded).1
    · split <;> simp [contents.1, marks]

theorem lines_oneLine (texts : ∀ text ∈ row.texts, OneLine text) : ∀ line ∈ row.lines, OneLine line := by
  simp only [TableRow.texts, List.cons_append, List.forall_mem_cons, List.forall_mem_append, List.forall_mem_flatMap] at texts
  obtain ⟨_, capability, alternatives⟩ := texts
  apply chain_forall
  · intro alternative member
    exact content_oneLine (by simpa using capability) (alternatives alternative member)
  · intro alternative member guard guarded
    have condition : OneLine guard.text := by
      apply alternatives alternative member
      simp [Alternative.texts, Option.mem_def.mp guarded]
    rw [oneLine_append, oneLine_append]
    exact ⟨⟨by decide, condition⟩, by decide, condition⟩
  · decide

theorem lines_isRegistration (row : TableRow) : ∀ line ∈ row.lines, isRegistration line = false := by
  apply chain_forall
  · intro alternative _
    unfold content
    rw [String.append_assoc]
    exact isRegistration_of_start _ (by decide)
  · intro alternative _ guard _
    exact ⟨isRegistration_of_start _ (by decide), isRegistration_of_start _ (by decide)⟩
  · decide

end TableRow

namespace DeviceTable

def heading (table : DeviceTable) : List String :=
  [banner, s!"/* Register table for {table.device.name}. */", ""]

def declaration (table : DeviceTable) : String :=
  s!"static const LWHAL_ROW_TYPE {table.device.tableSymbol}[] = \x7b"

def arrayStart (table : DeviceTable) : List String :=
  ["#include \"lwhal_table.h\"", "", table.declaration]

def arrayEnd : List String := ["    LWHAL_ROW_END()", "\x7d;", ""]

theorem arrayLines_eq (table : DeviceTable) :
    table.arrayLines = table.arrayStart ++ rowLines none table.rows ++ arrayEnd := rfl

theorem lines_eq (table : DeviceTable) : table.lines = table.heading ++
    guarded table.guards (table.arrayStart ++ (rowLines none table.rows ++
      (arrayEnd ++ table.sharing.flatMap table.registration))) := by
  rw [lines, arrayLines_eq, List.append_assoc, List.append_assoc]
  rfl

theorem registration_eq (table : DeviceTable) (device : Device) :
    table.registration device = guarded device.featureGuard?.toList [table.device.statementFor device] := rfl

theorem heading_forall {good : String → Prop} {table : DeviceTable} (first : good banner)
    (title : good s!"/* Register table for {table.device.name}. */") (blank : good "") : ∀ line ∈ table.heading, good line :=
  List.forall_mem_cons.mpr ⟨first, List.forall_mem_cons.mpr ⟨title, List.forall_mem_singleton.mpr blank⟩⟩

theorem arrayStart_forall {good : String → Prop} {table : DeviceTable} (included : good "#include \"lwhal_table.h\"")
    (blank : good "") (declares : good table.declaration) : ∀ line ∈ table.arrayStart, good line :=
  List.forall_mem_cons.mpr ⟨included, List.forall_mem_cons.mpr ⟨blank, List.forall_mem_singleton.mpr declares⟩⟩

theorem rowLines_forall {good : String → Prop} {rows : List TableRow} {last? : Option String}
    (symbols : ∀ row ∈ rows, good s!"    /* {row.symbol} */") (lines : ∀ row ∈ rows, ∀ line ∈ row.lines, good line) :
    ∀ line ∈ rowLines last? rows, good line := by
  induction rows generalizing last? with
  | nil => simp [rowLines]
  | cons row rest ih =>
    rw [List.forall_mem_cons] at symbols lines
    rw [rowLines, List.forall_mem_append, List.forall_mem_append]
    refine ⟨⟨?_, lines.1⟩, ih symbols.2 lines.2⟩
    split
    · simp
    · exact List.forall_mem_singleton.mpr symbols.1

theorem rowLines_oneLine {rows : List TableRow} (texts : ∀ row ∈ rows, ∀ text ∈ row.texts, OneLine text) :
    ∀ line ∈ rowLines none rows, OneLine line := by
  apply rowLines_forall
  · intro row member
    rw [oneLine_append, oneLine_append]
    exact ⟨⟨by decide, texts row member row.symbol (by simp [TableRow.texts])⟩, by decide⟩
  · intro row member
    exact TableRow.lines_oneLine (texts row member)

theorem rowLines_isRegistration (rows : List TableRow) : ∀ line ∈ rowLines none rows, isRegistration line = false := by
  apply rowLines_forall
  · intro row _
    rw [String.append_assoc]
    exact isRegistration_of_start _ (by decide)
  · intro row _
    exact row.lines_isRegistration

theorem heading_isRegistration (table : DeviceTable) : ∀ line ∈ table.heading, isRegistration line = false := by
  refine heading_forall (by decide) ?_ (by decide)
  rw [String.append_assoc]
  exact isRegistration_of_start _ (by decide)

theorem arrayStart_isRegistration (table : DeviceTable) : ∀ line ∈ table.arrayStart, isRegistration line = false := by
  refine arrayStart_forall (by decide) (by decide) ?_
  unfold declaration
  rw [String.append_assoc]
  exact isRegistration_of_start _ (by decide)

theorem statementFor_isRegistration (owner device : Device) : isRegistration (owner.statementFor device) := by
  unfold isRegistration startsWith Device.statementFor
  rw [List.isPrefixOf_iff_prefix]
  simp only [String.toList_append, List.append_assoc]
  exact List.prefix_append _ _

theorem arrayEnd_isRegistration : ∀ line ∈ arrayEnd, isRegistration line = false := by
  decide

theorem filter_other {lines : List String} (other : ∀ line ∈ lines, isRegistration line = false) :
    lines.filter isRegistration = [] := by
  apply List.filter_eq_nil_iff.mpr
  intro line member
  simp [other line member]

theorem filter_statements (owner : Device) (devices : List Device) :
    (devices.map owner.statementFor).filter isRegistration = devices.map owner.statementFor := by
  apply List.filter_eq_self.mpr
  intro line member
  obtain ⟨device, _, rfl⟩ := List.mem_map.mp member
  exact statementFor_isRegistration owner device

theorem guarded_oneLine {guards body : List String} (identifiers : ∀ guard ∈ guards, Condition.isIdentifier guard.toList)
    (inner : ∀ line ∈ body, OneLine line) : ∀ line ∈ guarded guards body, OneLine line := by
  have names : ∀ guard ∈ guards, OneLine guard := fun guard member => oneLine_identifier (identifiers guard member)
  have tests : ∀ text ∈ guards.map (fun guard => s!"defined({guard})"), OneLine text := by
    intro text member
    obtain ⟨guard, inside, rfl⟩ := List.mem_map.mp member
    rw [oneLine_append, oneLine_append]
    exact ⟨⟨by decide, names guard inside⟩, by decide⟩
  unfold guarded
  split
  · exact inner
  · rw [List.forall_mem_append, List.forall_mem_cons, List.forall_mem_singleton, oneLine_append, oneLine_append]
    exact ⟨⟨⟨by decide, oneLine_intercalate (by decide) tests⟩, inner⟩, by decide, oneLine_intercalate (by decide) names⟩

theorem statementFor_oneLine {owner device : Device} (own : OneLine owner.name) (name : OneLine device.name) :
    OneLine (owner.statementFor device) := by
  unfold Device.statementFor
  simp only [oneLine_append]
  exact ⟨⟨⟨⟨by decide, name⟩, by decide⟩, owner.tableSymbol_oneLine own⟩, by decide⟩

theorem lines_oneLine {table : DeviceTable} (own : OneLine table.device.name)
    (names : ∀ device ∈ table.sharing, OneLine device.name)
    (conditions : ∀ guard ∈ table.guards, Condition.isIdentifier guard.toList)
    (features : ∀ device ∈ table.sharing, ∀ guard ∈ device.featureGuard?, Condition.isIdentifier guard.toList)
    (texts : ∀ row ∈ table.rows, ∀ text ∈ row.texts, OneLine text) : ∀ line ∈ table.lines, OneLine line := by
  have title : OneLine s!"/* Register table for {table.device.name}. */" := by
    rw [oneLine_append, oneLine_append]
    exact ⟨⟨by decide, own⟩, by decide⟩
  have declares : OneLine table.declaration := by
    unfold declaration
    rw [oneLine_append, oneLine_append]
    exact ⟨⟨by decide, table.device.tableSymbol_oneLine own⟩, by decide⟩
  rw [lines_eq, List.forall_mem_append]
  refine ⟨?_, guarded_oneLine conditions ?_⟩
  · exact heading_forall (by decide) title (by decide)
  · rw [List.forall_mem_append, List.forall_mem_append, List.forall_mem_append, List.forall_mem_flatMap]
    refine ⟨arrayStart_forall (by decide) (by decide) declares, rowLines_oneLine texts, by decide, ?_⟩
    intro device member
    rw [registration_eq]
    apply guarded_oneLine
    · simpa using features device member
    · exact List.forall_mem_singleton.mpr (statementFor_oneLine own (names device member))

end DeviceTable
end RegisterCatalog
