import Dockboard.SortKey
import Dockboard.Text.Search
import Dockboard.Text.Width

set_option autoImplicit false

/-! # Tables

A table holds rows of any type, shows those that match its filter through a window of some
height, and has one of the shown rows selected. The rows are kept in an order of their own, or
sorted by a column; headings divide them into parts that are sorted each by itself.

    rows      every row, in order
    shown     the rows that match the filter
    cursor    the place of the selected row among the shown ones
    offset    the place of the first row in the window

After every operation the cursor is the place of a row, if there is one, and lies inside the
window, and the window does not reach beyond the last row unless it is larger than all of them.
-/

namespace Dockboard

open Dockboard.Text

/-- What a table needs to know of its rows. -/
structure RowFormat (R : Type) where
  /-- The text of each column. -/
  columns : R → List (List Char)
  /-- By what the row is found again when the rows are replaced. -/
  id? : R → Option String
  /-- Whether the row is the heading of those after it. -/
  isHeading : R → Bool
  /-- What the rows are sorted by in a column. -/
  sortKey : R → Nat → SortKey

/-- A column of a table. -/
structure Column where
  title : String
  /-- Its width; a column without one shares what the others leave. -/
  width : Option Nat := none
  deriving DecidableEq, Repr, Inhabited

/-- A table. -/
structure Table (R : Type) where
  columns : List Column
  widths : List Nat
  rows : List R := []
  filter : List Char := []
  shown : List R := []
  cursor : Nat := 0
  offset : Nat := 0
  height : Nat := 1
  /-- The column the rows are sorted by. -/
  sortField : Nat := 0
  /-- Whether the rows have been sorted, so that the header tells by what. -/
  sorted : Bool := false

/-- A line of a table as it is shown. -/
structure TableLine where
  text : List Char
  selected : Bool
  heading : Bool
  deriving DecidableEq, Repr

/-- A table as it is shown. -/
structure TableView where
  header : List Char
  lines : List TableLine
  deriving DecidableEq, Repr

namespace Table

variable {R : Type}

/-! ## Widths -/

/-- The widths of columns on a screen `width` wide: each its own, or an equal share of what
remains when a blank stands between any two. -/
def layout (columns : List Column) (width : Nat) : List Nat :=
  let fixed := (columns.filterMap Column.width).foldr (· + ·) 0
  let flexible := (columns.filter fun c => c.width.isNone).length
  let leftover := width - (fixed + (columns.length - 1))
  columns.map fun c => c.width.getD (leftover / flexible)

/-- A table without rows. -/
def new (columns : List Column) : Table R := { columns, widths := layout columns 80 }

/-! ## The window -/

/-- The table with its cursor on a row and its window around the cursor. -/
def settle (t : Table R) : Table R :=
  if t.shown.isEmpty then { t with cursor := 0, offset := 0 }
  else
    let cursor := min t.cursor (t.shown.length - 1)
    let offset :=
      if cursor < t.offset then cursor
      else if t.offset + t.height ≤ cursor then cursor + 1 - t.height
      else t.offset
    { t with cursor, offset := min offset (t.shown.length - t.height) }

/-- The selected row. -/
def selected? (t : Table R) : Option R := t.shown[t.cursor]?

/-- The place of the selected row. -/
def cursor? (t : Table R) : Option Nat := if t.shown.isEmpty then none else some t.cursor

/-- Move the cursor to a place, or as far towards it as there are rows. -/
def moveTo (t : Table R) (place : Nat) : Table R := settle { t with cursor := place }

/-- Move the cursor up by `n` rows. -/
def cursorUp (t : Table R) (n : Nat) : Table R := t.moveTo (t.cursor - n)

/-- Move the cursor down by `n` rows. -/
def cursorDown (t : Table R) (n : Nat) : Table R := t.moveTo (t.cursor + n)

/-- Move the cursor up by the height of the window. -/
def pageUp (t : Table R) : Table R := t.cursorUp t.height

/-- Move the cursor down by the height of the window. -/
def pageDown (t : Table R) : Table R := t.cursorDown t.height

/-- Move the cursor to the first row. -/
def home (t : Table R) : Table R := t.moveTo 0

/-- Move the cursor to the last row. -/
def toEnd (t : Table R) : Table R := t.moveTo (t.shown.length - 1)

/-- Fit the table to a screen `width` wide and a window of `height` lines, or one line. -/
def resize (t : Table R) (width height : Nat) : Table R :=
  settle { t with height := max height 1, widths := layout t.columns width }

/-! ## The rows that are shown -/

/-- Whether a row matches a filter: one of its columns does, or the filter is empty. -/
def passes (format : RowFormat R) (filter : List Char) (row : R) : Bool :=
  filter.isEmpty || (format.columns row).any fun column => matchesFilter filter column

/-- The table with `rows`, filtered, and the cursor on the row that was selected before if it is
still shown. -/
def replaceRows (format : RowFormat R) (t : Table R) (rows : List R) : Table R :=
  let shown := rows.filter (passes format t.filter)
  let place :=
    match t.selected?.bind format.id? with
    | some id => shown.findIdx? fun row => format.id? row == some id
    | none => none
  settle { t with rows, shown, cursor := place.getD t.cursor }

/-- The table with another filter. -/
def setFilter (format : RowFormat R) (t : Table R) (filter : List Char) : Table R :=
  settle { t with filter, shown := t.rows.filter (passes format filter) }

/-! ## Sorting -/

/-- Sort the rows between any two headings; `run` holds the rows since the last heading, the
latest first. -/
def sortRuns (isHeading : R → Bool) (le : R → R → Bool) (run : List R) : List R → List R
  | [] => run.reverse.mergeSort le
  | row :: rest =>
      if isHeading row then run.reverse.mergeSort le ++ row :: sortRuns isHeading le [] rest
      else sortRuns isHeading le (row :: run) rest

/-- The table with its rows sorted by an order of their own. -/
def sortBy (format : RowFormat R) (t : Table R) (le : R → R → Bool) : Table R :=
  t.replaceRows format (sortRuns format.isHeading le [] t.rows)

/-- Whether `a` may stand before `b` when rows are sorted by a column. -/
def columnLe (format : RowFormat R) (column : Nat) (a b : R) : Bool :=
  (format.sortKey a column).le (format.sortKey b column)

/-- The table sorted by its sort column. -/
def sortByField (format : RowFormat R) (t : Table R) : Table R :=
  sortBy format { t with sorted := true } (columnLe format t.sortField)

/-- Make the next column the sort column, after the last one the first. -/
def nextSortField (t : Table R) : Table R :=
  { t with
    sortField :=
      if t.columns.isEmpty then t.sortField else (t.sortField + 1) % t.columns.length
    sorted := true }

/-! ## What is shown -/

/-- Cells next to each other, each cut or padded to the width of its column. -/
def formatCells : List Nat → List (List Char) → List Char
  | [], _ => []
  | [width], cells => padRight width (ellipsize width (cells.headD []))
  | width :: widths, cells =>
      padRight width (ellipsize width (cells.headD [])) ++ ' ' :: formatCells widths cells.tail

/-- The width of all columns together. -/
def totalWidth (widths : List Nat) : Nat := widths.foldr (· + ·) 0 + (widths.length - 1)

/-- The cells of a heading one after the other across all columns. -/
def formatSpanning (widths : List Nat) (cells : List (List Char)) : List Char :=
  let total := totalWidth widths
  padRight total
    (ellipsize total (List.intercalate [' '] (cells.filter fun cell => !cell.isEmpty)))

/-- What marks the column the rows are sorted by. -/
def sortIndicator : List Char := ['▼']

/-- The titles of the columns. -/
def headerCells (t : Table R) : List (List Char) :=
  t.columns.mapIdx fun i column =>
    if t.sorted && i == t.sortField then column.title.toList ++ ' ' :: sortIndicator
    else column.title.toList

/-- The line of a row. -/
def lineText (format : RowFormat R) (t : Table R) (row : R) : List Char :=
  if format.isHeading row then formatSpanning t.widths (format.columns row)
  else formatCells t.widths (format.columns row)

/-- The rows in the window with their places. -/
def windowRows (t : Table R) : List (R × Nat) :=
  ((t.shown.drop t.offset).take t.height).zipIdx t.offset

/-- The table as it is shown. -/
def view (format : RowFormat R) (t : Table R) : TableView where
  header := formatCells t.widths t.headerCells
  lines := t.windowRows.map fun (row, place) =>
    { text := lineText format t row
      selected := place == t.cursor
      heading := format.isHeading row }

end Table

end Dockboard
