set_option autoImplicit false

/-! # Keys -/

namespace Dockboard

/-- A key, apart from the modifiers held with it. -/
inductive KeyCode where
  | char (c : Char)
  | enter
  | esc
  | up
  | down
  | left
  | right
  | pageUp
  | pageDown
  | home
  | toEnd
  | backspace
  | delete
  | insert
  | tab
  | backTab
  | null
  /-- The function key with this number. -/
  | function (number : Nat)
  deriving DecidableEq, Repr, Inhabited

/-- A key press. -/
structure Key where
  code : KeyCode
  control : Bool := false
  alt : Bool := false
  shift : Bool := false
  deriving DecidableEq, Repr, Inhabited

end Dockboard
