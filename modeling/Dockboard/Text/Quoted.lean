import Dockboard.Text.Hidden
import Dockboard.Text.Numeral

set_option autoImplicit false

/-! # Quoted text

Text that a message repeats back stands in double quotes. Quotes and backslashes are marked by a
backslash, the usual control characters have their letters, and any other character that would
not show by itself is named by its number in braces.
-/

namespace Dockboard.Text

/-- How `c` is written between quotes. -/
def escapeChar (c : Char) : List Char :=
  if c = '"' then ['\\', '"']
  else if c = '\\' then ['\\', '\\']
  else if c = '\n' then ['\\', 'n']
  else if c = '\r' then ['\\', 'r']
  else if c = '\t' then ['\\', 't']
  else if c = '\x00' then ['\\', '0']
  else if isHidden c then ['\\', 'u', '\x7b'] ++ Numeral.hex c.toNat ++ ['\x7d']
  else [c]

/-- `s` between quotes. -/
def quoted (s : String) : String :=
  String.ofList ('"' :: s.toList.flatMap escapeChar ++ ['"'])

end Dockboard.Text
