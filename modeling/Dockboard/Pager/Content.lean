import Dockboard.Text.Blank
import Dockboard.Text.Search
import Dockboard.Text.Width

set_option autoImplicit false

/-! # The content of a pager

A pager keeps text as lines, at most so many of them, the oldest being dropped. Text arrives in
pieces, so that the last line is open: the next piece continues it. What is shown and what is
found are functions of the lines, the filter and the search text:

    content   the lines, without an open line that is still empty
    visible   those of them that match the filter
    found     where the search text occurs in the visible lines, from top to bottom
-/

namespace Dockboard

open Dockboard.Text

/-- Where a search text occurs: a visible line and a span of its bytes. -/
structure Match where
  line : Nat
  begins : Nat
  ends : Nat
  deriving DecidableEq, Repr, Inhabited

namespace Pager

/-- `line` without a carriage return at its end. -/
def dropReturn (line : List Char) : List Char :=
  if line.getLast? = some '\r' then line.dropLast else line

/-- The lines with `pieces` behind them, the first piece continuing the last line. -/
def continueLines : List (List Char) → List (List Char) → List (List Char)
  | [], pieces => pieces
  | [last], [] => [last]
  | [last], piece :: pieces => (last ++ piece) :: pieces
  | line :: lines, pieces => line :: continueLines lines pieces

/-- How many lines of content there are. -/
def contentLength (lines : List (List Char)) : Nat :=
  if lines.getLast? = some [] then lines.length - 1 else lines.length

/-- The last `cap` lines of content, and the open line. -/
def capLines (cap : Nat) (lines : List (List Char)) : List (List Char) :=
  lines.drop (contentLength lines - cap)

/-- The lines when `text` has been read after them. A carriage return before the end of a line
that is read now is no part of it. -/
def appendText (cap : Nat) (lines : List (List Char)) (text : List Char) : List (List Char) :=
  if text.isEmpty then lines
  else
    let touched := lines.length - 1
    let joined := continueLines lines (splitOn '\n' text)
    capLines cap (joined.take touched ++ (joined.drop touched).map dropReturn)

/-- The lines of content. -/
def content (lines : List (List Char)) : List (List Char) := lines.take (contentLength lines)

/-- Whether a line matches a filter. -/
def passes (filter line : List Char) : Bool := filter.isEmpty || matchesFilter filter line

/-- Where `search` occurs in lines the first of which is number `first`. -/
def findFrom (search : List Char) (first : Nat) : List (List Char) → List Match
  | [] => []
  | line :: rest =>
      (findSpans (lower search) line).map (fun span => ⟨first, span.1, span.2⟩) ++
        findFrom search (first + 1) rest

end Pager

end Dockboard
