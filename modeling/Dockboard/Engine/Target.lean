import Dockboard.Engine.Exchange
import Dockboard.Text.Blank
import Dockboard.Text.Utf8

set_option autoImplicit false

/-! # The targets of requests

A target is a path, and after a question mark parameters with their values. The names of things
stand in the path as they are: what cannot stand in it is written as the numbers of its bytes,
but a slash separates parts, a question mark ends the path, and a hash mark ends the target.
-/

namespace Dockboard.Engine

open Dockboard.Text

namespace Target

/-- Two upper-case hexadecimal digits after a percent sign. -/
def percent (b : UInt8) : List Char :=
  ['%', (Nat.digitChar (b.toNat / 16)).toUpper, (Nat.digitChar (b.toNat % 16)).toUpper]

/-- Whether `c` cannot stand in the parameters of a target. -/
def isForbidden (c : Char) : Bool :=
  c.toNat ≤ 0x20 || 0x7F ≤ c.toNat || c == '"' || c == '<' || c == '>'

/-- Whether `c` cannot stand in the path of a target. -/
def isForbiddenInPath (c : Char) : Bool :=
  isForbidden c || c == '\x60' || c == '\x7b' || c == '\x7d'

/-- `s` with the characters that are `forbidden` written as their bytes. -/
def encode (forbidden : Char → Bool) (s : List Char) : List Char :=
  s.flatMap fun c => if forbidden c then (Utf8.encode [c]).flatMap percent else [c]

/-- Whether a part of a path means the part before it. -/
def isParent (part : List Char) : Bool :=
  [['.', '.'], ['.', '%', '2', 'e'], ['%', '2', 'e', '.'],
    ['%', '2', 'e', '%', '2', 'e']].contains (part.map Char.toLower)

/-- Whether a part of a path means nothing. -/
def isHere (part : List Char) : Bool :=
  [['.'], ['%', '2', 'e']].contains (part.map Char.toLower)

/-- Whether a part of a path is the letter of a drive, with a colon or a bar. -/
def isDrive : List Char → Bool
  | [letter, mark] => letter.isAlpha && (mark == ':' || mark == '|')
  | _ => false

/-- The parts before the last one, given in reverse. A drive is not left. -/
def leave : List (List Char) → List (List Char)
  | [] => []
  | part :: before => if isDrive part then part :: before else before

/-- The parts of a path after those already `read` in reverse, those left out that mean no part
of their own. A path that ends with one of these ends with a slash. -/
def resolve (read : List (List Char)) : List (List Char) → List (List Char)
  | [] => read.reverse
  | part :: rest =>
      if isParent part then
        if rest.isEmpty then ([] :: leave read).reverse else resolve (leave read) rest
      else if isHere part then
        if rest.isEmpty then ([] :: read).reverse else resolve read rest
      else resolve (part :: read) rest

/-- A path with what cannot stand in it encoded, a slash before each of its parts. -/
def path (s : List Char) : List Char :=
  (resolve [] ((splitOn '/' s).drop 1)).flatMap fun part => '/' :: encode isForbiddenInPath part

/-- Whether `c` is left out around a target. -/
def isPadding (c : Char) : Bool := c.toNat ≤ 0x20

/-- The target with that path and these parameters. Parameters that stand in the path already
count only if there are no others. -/
def ofPath (s : String) (parameters : Option String) : String :=
  let s := (dropWhileEnd isPadding (s.toList.dropWhile isPadding)).filter fun c =>
    c != '\t' && c != '\n' && c != '\r'
  let s := s.takeWhile (· != '#')
  let asked :=
    match parameters, splitOnce '?' s with
    | some given, _ => '?' :: given.toList
    | none, some (_, own) => '?' :: encode isForbidden own
    | none, none => []
  String.ofList (path (s.takeWhile (· != '?')) ++ asked)

end Target

/-- The request for that path. -/
def Request.to (verb : Verb) (path : String) (parameters : Option String := none) : Request :=
  ⟨verb, Target.ofPath path parameters⟩

end Dockboard.Engine
