import RegisterCatalog.Catalog.Fault

/-! The outline of a catalog: indentation decides which entry a line belongs to. A line stands below
the nearest earlier line that is indented less, and all lines below one entry are indented alike. -/

namespace RegisterCatalog.Outline

/-- Where a line stands: after `previous?` on its level, below the entries `above` it. The nearest
is first. -/
structure Place (α : Type) where
  previous? : Option α := none
  above : List α

/-- Finds the place of a line of the given width among the entries that are still open, the
innermost first. -/
def place (widthOf : α → Nat) (opened : List α) (width : Nat) : Except Fault (Place α) :=
  match opened with
  | [] => .ok { above := [] }
  | innermost :: _ =>
    if widthOf innermost < width then .ok { above := opened }
    else match opened.dropWhile fun entry => width < widthOf entry with
      | [] => .error .badIndent
      | previous :: above =>
        if widthOf previous = width then .ok { previous? := some previous, above }
        else .error .badIndent

end RegisterCatalog.Outline
