import Dockboard.Key
import Dockboard.Pager.Content

set_option autoImplicit false

/-! # Pagers

A pager shows text through a window, can be searched and filtered, and can follow a text that
is still being written. Its keys either move the window, or, while a prompt is open, edit the
text of the prompt.

    lines     the text, its last line open
    visible   the lines of content that match the filter
    found     where the search text occurs in the visible lines
    offset    the place of the first line in the window among the visible ones

What is visible and what is found are kept with the lines they come from, and are made anew
whenever the lines, the filter or the search text change (`rederive`, `research`).
-/

namespace Dockboard

open Dockboard.Text

/-- What the keys of a pager do. -/
inductive PagerMode where
  | browsing
  /-- A search text is being typed. -/
  | searching
  /-- A filter is being typed. -/
  | filtering
  deriving DecidableEq, Repr, Inhabited

/-- Where the text of a pager comes from. -/
inductive StreamState where
  /-- It has been there from the beginning. -/
  | static
  /-- From a stream that is being read. -/
  | live
  /-- From a stream that has ended, in case of an error with its text. -/
  | closed (error : Option String)
  deriving DecidableEq, Repr, Inhabited

/-- A pager. -/
structure Pager where
  title : String
  /-- The lines, the last of which is continued by the text that arrives next. -/
  lines : List (List Char) := []
  maxLines : Nat
  filter : List Char := []
  /-- The lines that match the filter. -/
  visible : List (List Char) := []
  search : List Char := []
  /-- Where the search text occurs in the visible lines. -/
  found : List Match := []
  /-- The place of the current match among all matches. -/
  currentMatch : Option Nat := none
  mode : PagerMode := .browsing
  /-- The text of the prompt. -/
  input : List Char := []
  /-- Whether the window stays at the end of the text. -/
  follow : Bool := false
  offset : Nat := 0
  width : Nat := 80
  height : Nat := 1
  stream : StreamState := .static
  deriving DecidableEq, Repr

/-- A line of a pager as it is shown. -/
structure PagerLine where
  text : List Char
  /-- The spans of bytes at which the search text was found. -/
  highlights : List Span
  /-- Whether the current match is in the line. -/
  current : Bool
  deriving DecidableEq, Repr

namespace Pager

/-! ## What is shown and what is found -/

/-- How many lines of content there are. -/
def lineCount (p : Pager) : Nat := contentLength p.lines

/-- The current match. -/
def current? (p : Pager) : Option Match := p.currentMatch.bind fun i => p.found[i]?

/-- The place of the first match, if there is one. -/
def firstMatch (p : Pager) : Option Nat := if p.found.isEmpty then none else some 0

/-- Look for the search text in the visible lines. -/
def research (p : Pager) : Pager :=
  { p with found := if p.search.isEmpty then [] else findFrom p.search 0 p.visible }

/-- Filter the lines, and look for the search text in what is visible then. The current match
stays the current one, or gives way to the first one if it is gone. -/
def rederive (p : Pager) : Pager :=
  let current := p.current?
  let p := research { p with visible := (content p.lines).filter (passes p.filter) }
  { p with
    currentMatch := (current.bind fun m => p.found.findIdx? (· == m)).or p.firstMatch }

/-- The largest offset at which the window does not reach beyond the last line. -/
def maxOffset (p : Pager) : Nat := p.visible.length - p.height

/-! ## Moving the window -/

/-- The window moved back as far as it reaches beyond the last line. -/
def settle (p : Pager) : Pager := { p with offset := min p.offset p.maxOffset }

/-- The window at the end if the pager follows, else not beyond it. -/
def settleFollowing (p : Pager) : Pager :=
  if p.follow then { p with offset := p.maxOffset } else p.settle

/-- Follow the text, or stop following it. -/
def setFollow (p : Pager) (follow : Bool) : Pager :=
  { p with follow, offset := if follow then p.maxOffset else p.offset }

/-- Fit the window to a screen. -/
def resize (p : Pager) (width height : Nat) : Pager :=
  settleFollowing { p with width, height := max height 1 }

/-- Move the window up by `n` lines, which ends following. -/
def scrollUp (p : Pager) (n : Nat) : Pager :=
  { p with follow := p.follow && n == 0, offset := p.offset - n }

/-- Move the window down by `n` lines. -/
def scrollDown (p : Pager) (n : Nat) : Pager := { p with offset := min (p.offset + n) p.maxOffset }

/-! ## Filter and search -/

/-- Move the window to the current match, which ends following. -/
def jumpToCurrent (p : Pager) : Pager :=
  match p.current? with
  | some m => { p with follow := false, offset := min m.line p.maxOffset }
  | none => p

/-- Show only the lines that match `filter`. -/
def setFilter (p : Pager) (filter : List Char) : Pager :=
  settle (rederive { p with filter })

/-- Look for `search` and move to where it is found first. -/
def setSearch (p : Pager) (search : List Char) : Pager :=
  let p := research { p with search }
  jumpToCurrent { p with currentMatch := p.firstMatch }

/-- Make the next match the current one, or the one before it, round and round. -/
def stepMatch (p : Pager) (forward : Bool) : Pager :=
  let count := p.found.length
  if count = 0 then p
  else
    let next :=
      match p.currentMatch with
      | none => 0
      | some i => if forward then (i + 1) % count else (i + count - 1) % count
    jumpToCurrent { p with currentMatch := some next }

/-! ## Text that arrives -/

/-- Read `text` at the end. -/
def append (p : Pager) (text : List Char) : Pager :=
  settleFollowing (rederive { p with lines := appendText p.maxLines p.lines text })

/-- The stream has ended; this says nothing new of a stream that has ended before. -/
def close (p : Pager) (error : Option String) : Pager :=
  if p.stream = .live then { p with stream := .closed error } else p

/-- A pager for a text that is complete. -/
def new (title : String) (text : List Char) (maxLines : Nat) : Pager :=
  let maxLines := max maxLines 1
  rederive { title, maxLines, lines := appendText maxLines [] text }

/-- A pager for a text that is to arrive. -/
def live (title : String) (maxLines : Nat) : Pager :=
  { new title [] maxLines with stream := .live, follow := true }

/-! ## Keys -/

/-- What a key means while no prompt is open, and whether it closes the pager. -/
def browse (p : Pager) (key : Key) : Pager × Bool :=
  match key.code with
  | .char 'q' | .esc => (p, true)
  | .up | .char 'k' => (p.scrollUp 1, false)
  | .down | .char 'j' => (p.scrollDown 1, false)
  | .pageUp | .char 'b' => (p.scrollUp p.height, false)
  | .pageDown | .char ' ' => (p.scrollDown p.height, false)
  | .char 'u' => (if key.control then p.scrollUp (p.height / 2) else p, false)
  | .char 'd' => (if key.control then p.scrollDown (p.height / 2) else p, false)
  | .home | .char 'g' => ({ p with follow := false, offset := 0 }, false)
  | .toEnd | .char 'G' => ({ p with offset := p.maxOffset }, false)
  | .char 'F' => (p.setFollow !p.follow, false)
  | .char '/' => ({ p with mode := .searching, input := [] }, false)
  | .char 'f' => ({ p with mode := .filtering, input := p.filter }, false)
  | .char 'n' => (p.stepMatch true, false)
  | .char 'N' => (p.stepMatch false, false)
  | _ => (p, false)

/-- What follows when the prompt is confirmed. -/
def confirmPrompt (p : Pager) : Pager :=
  let pattern := p.input
  let p := { p with input := [] }
  let p :=
    match p.mode with
    | .searching => p.setSearch pattern
    | .filtering => p.setFilter pattern
    | .browsing => p
  { p with mode := .browsing }

/-- What follows when the prompt is given up: a filter is removed, a search stays as it was. -/
def cancelPrompt (p : Pager) : Pager :=
  let p := if p.mode = .filtering then p.setFilter [] else p
  { p with input := [], mode := .browsing }

/-- What a key means while a prompt is open. -/
def edit (p : Pager) (key : Key) : Pager :=
  match key.code with
  | .enter => p.confirmPrompt
  | .esc => p.cancelPrompt
  | .backspace => { p with input := p.input.dropLast }
  | .char c => if key.control then p else { p with input := p.input ++ [c] }
  | _ => p

/-- Press a key; the answer tells whether it closes the pager. -/
def press (p : Pager) (key : Key) : Pager × Bool :=
  match p.mode with
  | .browsing => p.browse key
  | .searching | .filtering => (p.edit key, false)

/-! ## The window -/

/-- The spans of the matches in the visible line number `line`, as far as they begin within its
first `size` bytes. -/
def highlights (p : Pager) (line size : Nat) : List Span :=
  (p.found.filter fun m => m.line == line && m.begins < size).map fun m =>
    (m.begins, min m.ends size)

/-- The lines in the window. -/
def view (p : Pager) : List PagerLine :=
  (((p.visible.drop p.offset).take p.height).zipIdx p.offset).map fun (line, place) =>
    let text := line.take p.width
    { text
      highlights := p.highlights place (byteLength text)
      current := p.current?.any fun m => m.line == place }

end Pager

end Dockboard
