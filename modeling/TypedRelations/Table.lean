import TypedRelations.Relation.Basic

/-!
# Tables

A relation is shown as a table of text: a line of names between two borders, a line per tuple, and
a border at the end. Every column is as wide as the longest of its texts, counted in characters,
and shorter texts are filled up with spaces. A relation without tuples has no table.
-/

namespace TypedRelations.Table

/-- A text of equal characters. -/
def repeated (character : Char) (count : Nat) : String :=
  String.ofList (List.replicate count character)

/-- A text with spaces after it, up to a width. -/
def padded (text : String) (width : Nat) : String := text ++ repeated ' ' (width - text.length)

/-- A line of cells. The filler stands on either side of each cell, and the separator between
cells and at both ends. -/
def line (separator filler : Char) (cells : List String) : String :=
  String.singleton separator ++
    String.join (cells.map fun cell =>
      String.singleton filler ++ cell ++ String.singleton filler ++ String.singleton separator)

/-- The line of dashes above, below and inside a table. -/
def border (widths : List Nat) : String := line '+' '-' (widths.map (repeated '-'))

/-- A line of texts, each filled up to the width of its column. -/
def textLine (widths : List Nat) (texts : List String) : String :=
  line '|' ' ' ((texts.zip widths).map fun (text, width) => padded text width)

/-- The texts of the values of a tuple. -/
def texts (tuple : Tuple) : List String := tuple.map Value.text

/-- The width of the column at a position: the length of its longest text, the name included. -/
def columnWidth (rows : List (List String)) (position : Nat) (name : String) : Nat :=
  rows.foldl (fun width row => max width ((row[position]?).map String.length |>.getD 0))
    name.length

/-- The widths of all columns. -/
def columnWidths (relation : Relation) : List Nat :=
  relation.schema.names.zipIdx.map fun (name, position) =>
    columnWidth (relation.tuples.map texts) position name

/-- The lines of a table. -/
def lines (relation : Relation) : List String :=
  let widths := columnWidths relation
  [border widths, textLine widths relation.schema.names, border widths] ++
    relation.tuples.map (fun tuple => textLine widths (texts tuple)) ++ [border widths]

/-- The table of a relation. -/
def render (relation : Relation) : String :=
  if relation.isEmpty then "Empty set" else "\n".intercalate (lines relation)

instance : ToString Relation := ⟨render⟩

end TypedRelations.Table
