import TypedRelations.Proofs.Insertion.Filling
import TypedRelations.Table
import Mathlib.Algebra.BigOperators.Group.List.Basic
import Mathlib.Algebra.Ring.Nat

/-!
# Tables are rectangular

All lines of a table have the same length, and each cell stands at the place of its column, filled
up with spaces to the width of the column (`isTable_render`), because no text of a row is longer
than its column is wide (`fits_columnWidths`). The lines are read off the text by its line breaks,
so no name and no value may contain one.
-/

namespace TypedRelations.Table

variable {relation : Relation} {separator filler character : Char} {cells row : List String}
  {widths : List Nat} {column width : Nat} {text : String}

/-- The lines of a text, which are separated by line breaks. -/
def linesOf (text : String) : List (List Char) := text.toList.splitOn '\n'

/-- The rows of texts in a table, the names first. -/
def textRows (relation : Relation) : List (List String) :=
  relation.schema.names :: relation.tuples.map texts

/-- The texts of a column, the name first. -/
def columnTexts (relation : Relation) (column : Nat) : List String :=
  (textRows relation).filterMap (·[column]?)

/-- Where the cells of a column begin in a line. The columns before it take up their widths, a
filler on either side and a separator each, and the line begins with a separator and a filler. -/
def offset (widths : List Nat) (column : Nat) : Nat :=
  ((widths.map (· + 3)).take column).sum + 2

/-- A line shows the texts of a row, each at the place of its column, in full and with nothing but
spaces behind it up to the width of the column. -/
structure Shows (widths : List Nat) (row : List String) (line : List Char) : Prop where
  count : row.length = widths.length
  cell : ∀ column text, row[column]? = some text → ∃ width, widths[column]? = some width ∧
    text.length ≤ width ∧ (line.drop (offset widths column)).take width =
      text.toList ++ List.replicate (width - text.length) ' '

/-- The lines are a table of the relation with columns of the given widths. -/
structure IsTable (relation : Relation) (widths : List Nat) (table : List (List Char)) : Prop where
  columns : widths.length = relation.schema.length
  widest : ∀ column width, widths[column]? = some width →
    ((columnTexts relation column).map String.length).max? = some width
  count : table.length = relation.tuples.length + 4
  rectangular : ∀ line ∈ table, line.length = 1 + (widths.map (· + 3)).sum
  layout : ∃ border header rows, table = border :: header :: border :: rows ++ [border] ∧
    (∀ character ∈ border, character = '+' ∨ character = '-') ∧
    Shows widths relation.schema.names header ∧
    List.Forall₂ (fun tuple line => Shows widths (texts tuple) line) relation.tuples rows

/-- A cell with a filler on either side and a separator behind it. -/
def framed (separator filler : Char) (cell : String) : List Char :=
  filler :: (cell.toList ++ [filler, separator])

theorem toList_line (separator filler : Char) (cells : List String) :
    (line separator filler cells).toList =
      separator :: (cells.map (framed separator filler)).flatten := by
  have cellText : ∀ cell, (String.singleton filler ++ cell ++ String.singleton filler ++
      String.singleton separator).toList = framed separator filler cell := by
    simp [framed, String.toList_append]
  rw [line, String.toList_append, String.toList_singleton, String.toList_join, List.flatMap_map]
  simp only [cellText]
  rw [List.flatMap_def, List.singleton_append]

theorem map_length_framed (separator filler : Char) (cells : List String) :
    (cells.map (framed separator filler)).map List.length =
      (cells.map String.length).map (· + 3) := by
  simp [framed, Function.comp_def, String.length_toList]

theorem length_line (separator filler : Char) (cells : List String) :
    (line separator filler cells).toList.length =
      1 + ((cells.map String.length).map (· + 3)).sum := by
  rw [toList_line, List.length_cons, List.length_flatten, map_length_framed, Nat.add_comm]

theorem mem_line (member : character ∈ (line separator filler cells).toList) :
    character = separator ∨ character = filler ∨ ∃ cell ∈ cells, character ∈ cell.toList := by
  rw [toList_line, List.mem_cons, List.mem_flatten] at member
  rcases member with same | ⟨_, inCells, inCell⟩
  · exact .inl same
  · obtain ⟨cell, listed, rfl⟩ := List.mem_map.mp inCells
    simp only [framed, List.mem_cons, List.mem_append, List.not_mem_nil, or_false] at inCell
    tauto

/-- A cell stands at the place of its column. -/
theorem take_drop_line (separator filler : Char) {cell : String}
    (listed : cells[column]? = some cell) :
    ((line separator filler cells).toList.drop (offset (cells.map String.length) column)).take
      cell.length = cell.toList := by
  obtain ⟨bound, isCell⟩ := List.getElem?_eq_some_iff.mp listed
  have behind : (cells.map (framed separator filler)).flatten.drop
      (((cells.map String.length).map (· + 3)).take column).sum =
        framed separator filler cell ++
          ((cells.map (framed separator filler)).drop (column + 1)).flatten := by
    rw [← map_length_framed separator filler, ← List.map_take, List.map_take,
      List.drop_sum_flatten, List.drop_eq_getElem_cons (by simpa using bound), List.flatten_cons,
      List.getElem_map, isCell]
  rw [toList_line, offset, List.drop_succ_cons, ← List.drop_drop, behind, framed,
    List.cons_append, List.drop_succ_cons, List.drop_zero, List.append_assoc]
  exact List.take_left' String.length_toList

theorem toList_padded (text : String) (width : Nat) :
    (padded text width).toList = text.toList ++ List.replicate (width - text.length) ' ' := by
  rw [padded, String.toList_append, repeated, String.toList_ofList]

theorem length_padded (fits : text.length ≤ width) : (padded text width).length = width := by
  rw [← String.length_toList, toList_padded, List.length_append, List.length_replicate,
    String.length_toList]
  omega

/-- The cells of a line of texts. -/
def paddedCells (widths : List Nat) (row : List String) : List String :=
  (row.zip widths).map fun (text, width) => padded text width

/-- There is a column for each text of the row, and it is wide enough for it. -/
def Fits (widths : List Nat) (row : List String) : Prop :=
  List.Forall₂ (fun width text => text.length ≤ width) widths row

theorem map_length_paddedCells (fits : Fits widths row) :
    (paddedCells widths row).map String.length = widths := by
  induction fits with
  | nil => rfl
  | cons head _ ih =>
      rw [paddedCells, List.zip_cons_cons, List.map_cons, List.map_cons, length_padded head]
      exact congrArg _ ih

theorem length_textLine (fits : Fits widths row) :
    (textLine widths row).toList.length = 1 + (widths.map (· + 3)).sum := by
  have cells := length_line '|' ' ' (paddedCells widths row)
  rwa [map_length_paddedCells fits] at cells

theorem shows_textLine (fits : Fits widths row) :
    Shows widths row (textLine widths row).toList where
  count := (List.Forall₂.length_eq fits).symm
  cell column text listed := by
    obtain ⟨width, isWidth, enough⟩ := exists_left_at fits listed
    have both : (row.zip widths)[column]? = some (text, width) :=
      List.getElem?_zip_eq_some.mpr ⟨listed, isWidth⟩
    have isCell : (paddedCells widths row)[column]? = some (padded text width) := by
      rw [paddedCells, List.getElem?_map, both, Option.map_some]
    have placed := take_drop_line '|' ' ' isCell
    rw [map_length_paddedCells fits, length_padded enough, toList_padded] at placed
    exact ⟨width, isWidth, enough, placed⟩

theorem length_border (widths : List Nat) :
    (border widths).toList.length = 1 + (widths.map (· + 3)).sum := by
  rw [border, length_line]
  simp [repeated, Function.comp_def, ← String.length_toList]

theorem mem_border (member : character ∈ (border widths).toList) :
    character = '+' ∨ character = '-' := by
  rcases mem_line member with separates | fills | ⟨_, inCells, inCell⟩
  · exact .inl separates
  · exact .inr fills
  · obtain ⟨width, -, rfl⟩ := List.mem_map.mp inCells
    rw [repeated, String.toList_ofList] at inCell
    exact .inr (List.eq_of_mem_replicate inCell)

theorem columnWidth_eq_foldl (rows : List (List String)) (column : Nat) (name : String) :
    columnWidth rows column name =
      ((rows.filterMap (·[column]?)).map String.length).foldl max name.length := by
  rw [columnWidth]
  generalize name.length = width
  induction rows generalizing width with
  | nil => rfl
  | cons row rows ih =>
      rw [List.foldl_cons, ih, List.filterMap_cons]
      cases row[column]? with
      | none => rw [Option.map_none, Option.getD_none, Nat.max_zero]
      | some text => rfl

theorem getElem?_columnWidths (relation : Relation) (column : Nat) :
    (columnWidths relation)[column]? = relation.schema.names[column]?.map
      (columnWidth (relation.tuples.map texts) column) := by
  rw [columnWidths, List.getElem?_map, List.getElem?_zipIdx, Option.map_map, Nat.zero_add]
  rfl

theorem length_columnWidths (relation : Relation) :
    (columnWidths relation).length = relation.schema.length := by
  rw [columnWidths, List.length_map, List.length_zipIdx, Schema.names, List.length_map]

/-- A column is as wide as its longest text. -/
theorem max?_columnTexts (isWidth : (columnWidths relation)[column]? = some width) :
    ((columnTexts relation column).map String.length).max? = some width := by
  rw [getElem?_columnWidths, Option.map_eq_some_iff] at isWidth
  obtain ⟨name, named, rfl⟩ := isWidth
  rw [columnTexts, textRows, List.filterMap_cons, named, List.map_cons, List.max?_cons',
    columnWidth_eq_foldl]

theorem length_eq_of_mem_textRows (shape : relation.WellFormed) (shown : row ∈ textRows relation) :
    row.length = relation.schema.length := by
  rcases List.mem_cons.mp shown with rfl | isTuple
  · exact List.length_map _
  · obtain ⟨tuple, stored, rfl⟩ := List.mem_map.mp isTuple
    rw [texts, List.length_map, shape.length_eq stored]

/-- No text is longer than its column is wide. -/
theorem fits_columnWidths (shape : relation.WellFormed) (shown : row ∈ textRows relation) :
    Fits (columnWidths relation) row := by
  rw [Fits, List.forall₂_iff_get]
  refine ⟨?_, fun column inWidths inRow => ?_⟩
  · rw [length_columnWidths, length_eq_of_mem_textRows shape shown]
  · have inColumn : row[column] ∈ columnTexts relation column :=
      List.mem_filterMap.mpr ⟨row, shown, List.getElem?_eq_getElem inRow⟩
    have widest := max?_columnTexts (List.getElem?_eq_getElem inWidths)
    exact (List.max?_eq_some_iff.mp widest).2 _ (List.mem_map_of_mem inColumn)

/-! ## Tables -/

/-- A line of a table is a border or shows a row. -/
theorem mem_lines {line : String} (member : line ∈ lines relation) :
    line = border (columnWidths relation) ∨
      ∃ row ∈ textRows relation, line = textLine (columnWidths relation) row := by
  simp only [lines, List.cons_append, List.nil_append, List.mem_cons, List.mem_append,
    List.mem_map, List.not_mem_nil, or_false] at member
  rcases member with isBorder | isHeader | isBorder | ⟨tuple, stored, rfl⟩ | isBorder
  · exact .inl isBorder
  · exact .inr ⟨_, List.mem_cons_self, isHeader⟩
  · exact .inl isBorder
  · exact .inr ⟨_, List.mem_cons_of_mem _ (List.mem_map_of_mem stored), rfl⟩
  · exact .inl isBorder

/-- No name of a field and no value is written with a line break. -/
structure Unbroken (relation : Relation) : Prop where
  names : ∀ name ∈ relation.schema.names, '\n' ∉ name.toList
  values : ∀ tuple ∈ relation.tuples, ∀ value ∈ tuple, '\n' ∉ value.text.toList

theorem Unbroken.not_mem (unbroken : Unbroken relation) (shown : row ∈ textRows relation) :
    ∀ text ∈ row, '\n' ∉ text.toList := by
  rcases List.mem_cons.mp shown with rfl | isTuple
  · exact unbroken.names
  · obtain ⟨tuple, stored, rfl⟩ := List.mem_map.mp isTuple
    exact List.forall_mem_map.mpr (unbroken.values tuple stored)

theorem not_mem_textLine (unbroken : ∀ text ∈ row, '\n' ∉ text.toList) :
    '\n' ∉ (textLine widths row).toList := by
  intro member
  rcases mem_line member with separates | fills | ⟨_, inCells, inCell⟩
  · exact absurd separates (by decide)
  · exact absurd fills (by decide)
  · obtain ⟨⟨text, width⟩, paired, rfl⟩ := List.mem_map.mp inCells
    rw [toList_padded, List.mem_append] at inCell
    rcases inCell with inText | isSpace
    · exact unbroken text (List.of_mem_zip paired).1 inText
    · exact absurd (List.eq_of_mem_replicate isSpace) (by decide)

theorem Unbroken.not_mem_lines (unbroken : Unbroken relation) :
    ∀ line ∈ lines relation, '\n' ∉ line.toList := by
  intro line member
  rcases mem_lines member with rfl | ⟨row, shown, rfl⟩
  · intro present
    rcases mem_border present with same | same
    · exact absurd same (by decide)
    · exact absurd same (by decide)
  · exact not_mem_textLine (unbroken.not_mem shown)

/-- The lines that are read in a table are those that it has been put together from. -/
theorem linesOf_render (nonempty : relation.tuples ≠ []) (unbroken : Unbroken relation) :
    linesOf (render relation) = (lines relation).map String.toList := by
  have hasTuples : relation.isEmpty = false := List.isEmpty_eq_false_iff.mpr nonempty
  have shown : (render relation).toList =
      ['\n'].intercalate ((lines relation).map String.toList) := by
    rw [render, hasTuples, if_neg Bool.false_ne_true, String.toList_intercalate]
    rfl
  rw [linesOf, shown]
  exact List.splitOn_intercalate '\n' (List.forall_mem_map.mpr unbroken.not_mem_lines)
    (List.cons_ne_nil _ _)

/-- The characters of the line that shows a row. -/
def shownRow (relation : Relation) (row : List String) : List Char :=
  (textLine (columnWidths relation) row).toList

theorem map_toList_lines (relation : Relation) :
    let edge := (border (columnWidths relation)).toList
    (lines relation).map String.toList =
      edge :: shownRow relation relation.schema.names :: edge ::
        relation.tuples.map (fun tuple => shownRow relation (texts tuple)) ++ [edge] := by
  simp [lines, shownRow, Function.comp_def]

/-- A table has two borders around the names, a line for each tuple, and a border at the end. All of
its lines have the same length, and every cell stands in its column. -/
theorem isTable_render (reachable : relation.Reachable) (nonempty : relation.tuples ≠ [])
    (unbroken : Unbroken relation) :
    IsTable relation (columnWidths relation) (linesOf (render relation)) := by
  have shows : ∀ row ∈ textRows relation,
      Shows (columnWidths relation) row (shownRow relation row) :=
    fun row shown => shows_textLine (fits_columnWidths reachable.wellFormed shown)
  rw [linesOf_render nonempty unbroken]
  constructor
  case columns => exact length_columnWidths relation
  case widest => exact fun column width isWidth => max?_columnTexts isWidth
  case count => simp [lines]
  case rectangular =>
    refine List.forall_mem_map.mpr fun line member => ?_
    rcases mem_lines member with rfl | ⟨row, shown, rfl⟩
    · exact length_border _
    · exact length_textLine (fits_columnWidths reachable.wellFormed shown)
  case layout =>
    refine ⟨_, _, _, map_toList_lines relation, fun _ => mem_border,
      shows _ List.mem_cons_self, ?_⟩
    rw [List.forall₂_map_right_iff, List.forall₂_same]
    exact fun tuple stored => shows _ (List.mem_cons_of_mem _ (List.mem_map_of_mem stored))

/-- Dishes, with a field that has no name. -/
def dishes : Relation :=
  ⟨"dishes", [.any "dish", .any "", .any "|"],
    [[.str "crème | brûlée", .int (-12), .null], [.str "", .bool true, .str "a"]]⟩

theorem reachable_dishes : dishes.Reachable :=
  Relation.reachable_of_rows (by decide) (by decide) (by decide)

/-- Accented letters count as one character, and a bar in a text moves nothing. -/
theorem isTable_render_dishes :
    columnWidths dishes = [14, 4, 4] ∧ (linesOf (render dishes)).length = 6 ∧
      (∀ line ∈ linesOf (render dishes), line.length = 32) ∧
      ∃ line, (linesOf (render dishes))[3]? = some line ∧
        (line.drop 2).take 14 = "crème | brûlée".toList ∧
        (line.drop 19).take 4 = "-12 ".toList ∧ (line.drop 26).take 4 = "null".toList := by
  have widths : columnWidths dishes = [14, 4, 4] := by decide
  have unbroken : Unbroken dishes := ⟨by decide, by decide⟩
  have table := isTable_render reachable_dishes (List.cons_ne_nil _ _) unbroken
  obtain ⟨border, header, rows, layout, -, -, shown⟩ := table.layout
  rw [widths] at table shown
  refine ⟨widths, table.count, table.rectangular, ?_⟩
  cases shown with
  | cons first _ =>
      obtain ⟨_, isFirst, -, dish⟩ := first.cell 0 "crème | brûlée" (by decide)
      obtain ⟨_, isSecond, -, price⟩ := first.cell 1 "-12" (by decide)
      obtain ⟨_, isThird, -, note⟩ := first.cell 2 "null" (by decide)
      cases isFirst
      cases isSecond
      cases isThird
      exact ⟨_, by rw [layout]; rfl, dish, price, note⟩

end TypedRelations.Table
