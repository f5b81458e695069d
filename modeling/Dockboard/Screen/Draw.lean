import Dockboard.Screen.Theme
import Dockboard.Text.Width

set_option autoImplicit false

/-! # Drawing

What is drawn is a list of instructions to the terminal. Only at the end are they written out as
characters and escape sequences, so that what a line holds can be told from how it looks.
-/

namespace Dockboard.Screen

open Dockboard.Text

/-- An instruction to the terminal. -/
inductive Draw where
  | text (text : List Char)
  | newline
  /-- Move to a column and a row, counted from zero. -/
  | moveTo (x y : Nat)
  | clear
  | fore (color : Color)
  | back (color : Color)
  | bold
  /-- End bold text. -/
  | plain
  /-- Return to the terminal's own colours. -/
  | resetColors
  deriving DecidableEq, Repr

namespace Draw

/-- An escape sequence. -/
def escape (body : String) : List Char := '\x1b' :: '[' :: body.toList

/-- The escape sequence that sets a colour, `layer` being 3 for the foreground and 4 for the
background. -/
def colorEscape (layer : Nat) (color : Color) : List Char :=
  match color.number? with
  | none => escape s!"{layer}9m"
  | some n => escape s!"{layer}8;5;{n}m"

/-- The characters that are sent for an instruction. -/
def write : Draw → List Char
  | text s => s
  | newline => ['\r', '\n']
  | moveTo x y => escape s!"{y + 1};{x + 1}H"
  | clear => escape "2J"
  | fore color => colorEscape 3 color
  | back color => colorEscape 4 color
  | bold => escape "1m"
  | plain => escape "0m"
  | resetColors => escape "0m"

/-- The characters that are sent for a list of instructions. -/
def writeAll (draws : List Draw) : String := String.ofList (draws.flatMap write)

/-- A whole line. -/
def line (width : Nat) (s : List Char) : List Draw := [.text (fit width s), .newline]

/-- `count` empty lines. -/
def blankLines (count : Nat) : List Draw := List.replicate count .newline

/-- A line that may be marked as selected. -/
def selectable (theme : Theme) (width : Nat) (s : List Char) (selected : Bool) : List Draw :=
  if selected then
    [.back theme.selectionBack, .fore theme.selectionFore, .text (fit width s), .resetColors,
     .newline]
  else line width s

end Draw

end Dockboard.Screen
