import Dockboard.Prompt.Basic
import Dockboard.Screen.Draw

set_option autoImplicit false

/-! # Prompts on the screen

A question is drawn as a bar above the status line, a menu as a box in the middle. Coordinates
have 16 bits.
-/

namespace Dockboard.Screen

open Dockboard.Text

/-- A coordinate on the screen. -/
def coordinate (n : Nat) : Nat := n % 65536

/-- The row of the bar on a screen of `height` rows. -/
def barRow (height : Nat) : Nat := coordinate (height - 3)

/-- The text of a field with its cursor. -/
def fieldText (prompt : String) (field : Field) : List Char :=
  s!"  {prompt} ".toList ++ field.before ++ '|' :: field.after

/-- The width of a menu inside its border. -/
def menuWidth {A : Type} (menu : Menu A) (width : Nat) : Nat :=
  let widths := (menu.title.length + 4) :: menu.items.map fun item => item.label.length + 4
  min (widths.foldl max 0) (width - 4)

/-- The text of a line of a menu. -/
def menuText (inner : Nat) (s : List Char) : Draw := .text (' ' :: fit inner s ++ [' '])

/-- An item of a menu. -/
def menuItem {A : Type} (theme : Theme) (inner : Nat) (item : MenuItem A) (marked : Bool) :
    List Draw :=
  if marked then
    [.back theme.selectionBack, .fore theme.selectionFore,
     menuText inner ("> ".toList ++ item.label.toList), .back theme.promptBack, .fore .white]
  else [menuText inner ("  ".toList ++ item.label.toList)]

/-- A menu in the middle of the screen. -/
def menuBox {A : Type} (theme : Theme) (menu : Menu A) (width height : Nat) : List Draw :=
  let inner := menuWidth menu width
  let x := coordinate ((width - (inner + 2)) / 2)
  let y := coordinate ((height - (menu.items.length + 2)) / 2)
  [.moveTo x y, .back theme.promptBack, .fore .white, .bold, menuText inner menu.title.toList,
   .plain] ++
    (menu.items.zipIdx.flatMap fun (item, i) =>
      .moveTo x (y + 1 + i) :: menuItem theme inner item (i == menu.selected)) ++
    [.moveTo x (y + 1 + menu.items.length), .fore theme.muted,
     menuText inner "Enter: select  Esc: close".toList, .resetColors]

/-- A question on a screen of `width` by `height`. -/
def promptBox {A : Type} (theme : Theme) (question : Question A) (width height : Nat) :
    List Draw :=
  match question with
  | .confirm prompt =>
      [.moveTo 0 (barRow height), .back theme.confirmBack, .fore .white, .bold,
       .text (fit width s!"  {prompt}".toList), .resetColors, .plain]
  | .input prompt field =>
      [.moveTo 0 (barRow height), .back theme.promptBack, .fore .white,
       .text (fit width (fieldText prompt field)), .resetColors]
  | .menu m => menuBox theme m width height

end Dockboard.Screen
