set_option autoImplicit false

/-! # Colours -/

namespace Dockboard.Screen

/-- A colour of the terminal. -/
inductive Color where
  /-- The terminal's own colour. -/
  | unset
  | black
  | darkRed
  | darkGreen
  | darkYellow
  | darkBlue
  | darkMagenta
  | darkCyan
  | grey
  | darkGrey
  | red
  | green
  | yellow
  | blue
  | magenta
  | cyan
  | white
  deriving DecidableEq, Repr, Inhabited

namespace Color

/-- The number of a colour in the terminal's palette. -/
def number? : Color → Option Nat
  | unset => none
  | black => some 0
  | darkRed => some 1
  | darkGreen => some 2
  | darkYellow => some 3
  | darkBlue => some 4
  | darkMagenta => some 5
  | darkCyan => some 6
  | grey => some 7
  | darkGrey => some 8
  | red => some 9
  | green => some 10
  | yellow => some 11
  | blue => some 12
  | magenta => some 13
  | cyan => some 14
  | white => some 15

end Color

/-- The colours of everything on the screen. -/
structure Theme where
  selectionBack : Color := .darkGrey
  selectionFore : Color := .white
  tabBack : Color := .darkBlue
  tabFore : Color := .white
  muted : Color := .darkGrey
  title : Color := .white
  accent : Color := .cyan
  warning : Color := .yellow
  error : Color := .red
  ok : Color := .green
  matchBack : Color := .darkYellow
  currentMatchBack : Color := .yellow
  promptBack : Color := .darkBlue
  confirmBack : Color := .darkRed
  deriving DecidableEq, Repr, Inhabited

/-- The terminal's own colours for everything but what has to stand out. -/
def Theme.monochrome : Theme where
  selectionBack := .grey
  selectionFore := .black
  tabBack := .grey
  tabFore := .black
  muted := .unset
  title := .unset
  accent := .unset
  warning := .unset
  error := .unset
  ok := .unset
  matchBack := .grey
  currentMatchBack := .white
  promptBack := .unset
  confirmBack := .unset

end Dockboard.Screen
