import Dockboard.Document.Basic
import Dockboard.Text.Numeral

set_option autoImplicit false

/-! # Writing documents

A document is written with each element and each field on a line of its own, two spaces further
in than the brackets around it. A list or a record without any is written on one line.
-/

namespace Dockboard.Document

open Dockboard.Text

/-- How `c` is written between quotes. -/
def escapeChar (c : Char) : List Char :=
  if c = '"' then ['\\', '"']
  else if c = '\\' then ['\\', '\\']
  else if c = '\x08' then ['\\', 'b']
  else if c = '\x0c' then ['\\', 'f']
  else if c = '\n' then ['\\', 'n']
  else if c = '\r' then ['\\', 'r']
  else if c = '\t' then ['\\', 't']
  else if c.toNat < 0x20 then
    let hex := Numeral.hex c.toNat
    ['\\', 'u'] ++ List.replicate (4 - hex.length) '0' ++ hex
  else [c]

/-- A text between quotes. -/
def quote (s : String) : List Char := '"' :: s.toList.flatMap escapeChar ++ ['"']

/-- A new line that begins with `indent` spaces. -/
def newLine (indent : Nat) : List Char := '\n' :: List.replicate indent ' '

/-- Parts with commas between them, in brackets that stand `indent` spaces in. -/
def bracket (opening closing : Char) (indent : Nat) (parts : List (List Char)) : List Char :=
  if parts.isEmpty then [opening, closing]
  else
    let inner := newLine (indent + 2)
    opening :: inner ++ List.intercalate (',' :: inner) parts ++ newLine indent ++ [closing]

mutual

/-- A document whose first line stands `indent` spaces in. -/
def write (indent : Nat) : Document → List Char
  | .nothing => "null".toList
  | .flag value => (if value then "true" else "false").toList
  | .number value => (toString value).toList
  | .text value => quote value
  | .list items => bracket '[' ']' indent (writeItems (indent + 2) items)
  | .record fields => bracket '\x7b' '\x7d' indent (writeFields (indent + 2) fields)

/-- The elements of a list, each of them as it is written. -/
def writeItems (indent : Nat) : List Document → List (List Char)
  | [] => []
  | item :: rest => write indent item :: writeItems indent rest

/-- The fields of a record, each of them as it is written. -/
def writeFields (indent : Nat) : List (String × Document) → List (List Char)
  | [] => []
  | (name, value) :: rest =>
      (quote name ++ ": ".toList ++ write indent value) :: writeFields indent rest

end

/-- A document as a text. -/
def pretty (d : Document) : String := String.ofList (write 0 d)

end Dockboard.Document
