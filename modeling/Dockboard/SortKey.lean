import Dockboard.Binary64
import Dockboard.Text.Case

set_option autoImplicit false

/-! # Sort keys

The rows of a table are ordered by a key per column: a text, compared by code points, or a
number, compared by its place in the total order of floating-point numbers. Numbers stand before
texts.
-/

namespace Dockboard

/-- What a row is sorted by. -/
inductive SortKey where
  | text (text : String)
  | number (value : Binary64)
  deriving DecidableEq, Repr, Inhabited

namespace SortKey

/-- The order of sort keys. -/
def compare : SortKey → SortKey → Ordering
  | .number a, .number b => Ord.compare (Binary64.rank a) (Binary64.rank b)
  | .text a, .text b => Ord.compare a b
  | .number _, .text _ => .lt
  | .text _, .number _ => .gt

/-- Whether `a` may stand before `b`. -/
def le (a b : SortKey) : Bool := (compare a b).isLE

/-- The key of a text that is sorted without regard to case. -/
def folded (text : List Char) : SortKey := .text (String.ofList (Text.lower text))

/-- The key of a column that is sorted by what it shows; a missing column counts as empty. -/
def ofColumn (columns : List (List Char)) (column : Nat) : SortKey :=
  folded (columns.getD column [])

end SortKey

end Dockboard
