import Std.Data.TreeSet
import RegisterCatalog.Catalog.Basic
import RegisterCatalog.Catalog.Declaration
import RegisterCatalog.Catalog.Outline
import RegisterCatalog.Text.HashComment
import RegisterCatalog.Text.Words

/-! Reading a catalog from text. Each line that is not blank declares one entry. The first fault
ends the reading, and what concerns the catalog as a whole is checked at the end. -/

namespace RegisterCatalog

/-- The lines of a text with their numbers. -/
def sourceLines (text : String) : List SourceLine :=
  ((Text.lines text).zipIdx 1).map fun (line, number) => ⟨number, line⟩

namespace Catalog

/-- An entry that later lines may still stand below or beside. -/
structure Opened extends Entry.Above where
  width : Nat

/-- What has been read so far: the catalog, and the last entry with the entries above it, innermost
first. -/
structure Reading where
  catalog : Catalog := {}
  opened : List Opened := []

/-- The number of spaces a line starts with. -/
def indentation (line : String) : Nat :=
  (line.toList.takeWhile (· == ' ')).length

/-- Adds the entry that a line of the given width declares. -/
def Reading.add (settings : Settings) (layout : Layout) (reading : Reading) (line width : Nat)
    (word : String) (rest : List String) : Except Fault Reading := do
  let place ← Outline.place Opened.width reading.opened width
  match Level.ofDepth? place.above.length with
  | none => .error .tooDeep
  | some level =>
    let entry ← Entry.ofWords settings layout line level (place.above.head?.map Opened.toAbove)
      (place.previous?.map fun previous => previous.entry) word rest
    let added : Opened := { place := reading.catalog.size, entry, width }
    return { catalog := reading.catalog.push entry, opened := added :: place.above }

/-- Reads one line. A line without words changes nothing. -/
def Reading.readLine (settings : Settings) (layout : Layout) (reading : Reading)
    (line : SourceLine) : Except LineFault Reading :=
  let code := Text.stripComment line.text
  match Text.words code with
  | [] => .ok reading
  | word :: rest =>
    (reading.add settings layout line.number (indentation code) word rest).mapError (⟨line, ·⟩)

end Catalog

/-- The first substitution of an entry that none of its hardware names gives a place to. -/
def Entry.unresolved? (entry : Entry) : Option String :=
  (entry.deviceRules.map DeviceRule.old ++
      entry.dimensions.filterMap fun dimension => dimension.rule.part?).find? fun part =>
    !entry.hardwareNames.any fun known => Text.contains part known.name

namespace Catalog

/-- The first entry, if any, with a substitution in vain or with the symbol of an earlier entry. -/
def faultAmong? (symbols : Std.TreeSet String) : List Entry → Option (Entry × Fault)
  | [] => none
  | entry :: rest =>
    match entry.unresolved? with
    | some part => some (entry, .unresolvedSubstitution part)
    | none =>
      if symbols.contains entry.symbol then some (entry, .duplicateSymbol entry.symbol)
      else faultAmong? (symbols.insert entry.symbol) rest

/-- Reads a catalog. Tabs are refused wherever they stand, before anything else is looked at. -/
def read (settings : Settings) (layout : Layout) (text : String) : Except LineFault Catalog := do
  let lines := sourceLines text
  match lines.find? fun line => Text.contains "\t" line.text with
  | some line => .error ⟨line, .tabCharacter⟩
  | none =>
    let reading ← lines.foldlM (Reading.readLine settings layout) {}
    match faultAmong? ∅ reading.catalog.toList with
    | none => return reading.catalog
    | some (entry, fault) =>
      let text := ((lines[entry.line - 1]?).map SourceLine.text).getD ""
      .error ⟨⟨entry.line, text⟩, fault⟩

end Catalog
end RegisterCatalog
