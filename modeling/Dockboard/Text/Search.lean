import Dockboard.Text.Case

set_option autoImplicit false

/-! # Finding text in a line, whatever its case

A filter asks whether the lower case of a line contains the lower case of a pattern. A search
asks where: its answers are spans of the line, counted in bytes of its UTF-8 form, so that they
can be drawn. Since a character may have a lower case of another size, the line is unfolded into
its lower-cased characters, each with the span of the character it came from.
-/

namespace Dockboard.Text

/-- How many bytes `s` has in UTF-8. -/
def byteLength : List Char → Nat
  | [] => 0
  | c :: rest => c.utf8Size + byteLength rest

/-- Whether `needle` occurs in `hay`. -/
def occursIn (needle : List Char) : List Char → Bool
  | [] => needle.isEmpty
  | c :: hay => needle.isPrefixOf (c :: hay) || occursIn needle hay

/-- Whether the lower case of `hay` contains the lower case of `pattern`. -/
def matchesFilter (pattern hay : List Char) : Bool := occursIn (lower pattern) (lower hay)

/-- A lower-cased character with the span of the character it is (part of) the fold of. -/
structure Folded where
  char : Char
  /-- Where the character of the line begins. -/
  begins : Nat
  /-- Where it ends. -/
  ends : Nat

/-- The folds of the characters of a line that begins at byte `at_`. -/
def unfoldFrom (at_ : Nat) : List Char → List Folded
  | [] => []
  | c :: rest =>
      (foldChar c).map (fun low => ⟨low, at_, at_ + c.utf8Size⟩) ++
        unfoldFrom (at_ + c.utf8Size) rest

/-- A span of bytes, its end not included. -/
abbrev Span := Nat × Nat

/-- The span covered by `needle` at the beginning of `hay`, the line being `size` bytes long: up
to where the next folded character begins, or, where the needle ends inside the fold of the
character it begins in, to the end of that character. -/
def spanOf (needle : List Char) (hay : List Folded) (size : Nat) : Span :=
  let begins := (hay.head?.map Folded.begins).getD size
  let next := ((hay.drop needle.length).head?.map Folded.begins).getD size
  if next ≤ begins then (begins, (hay.head?.map Folded.ends).getD size) else (begins, next)

/-- The spans of the occurrences of `needle`, from left to right, none overlapping the one before
it; `skip` characters belong to the occurrence found last. -/
def spansFrom (needle : List Char) (size : Nat) : Nat → List Folded → List Span
  | _, [] => []
  | skip + 1, _ :: hay => spansFrom needle size skip hay
  | 0, f :: hay =>
      if needle.isPrefixOf ((f :: hay).map Folded.char) then
        spanOf needle (f :: hay) size :: spansFrom needle size (needle.length - 1) hay
      else spansFrom needle size 0 hay

/-- Where `needle`, a lower-cased text, occurs in `line`. -/
def findSpans (needle line : List Char) : List Span :=
  if needle.isEmpty then [] else spansFrom needle (byteLength line) 0 (unfoldFrom 0 line)

end Dockboard.Text
