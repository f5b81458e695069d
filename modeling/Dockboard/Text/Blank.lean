set_option autoImplicit false

/-! # White space

White space is the property White_Space of the Unicode standard. The module trims text, cuts it
into words and into lines, and parts it at a first separator.
-/

namespace Dockboard.Text

/-- Whether `c` is white space. -/
def isBlank (c : Char) : Bool :=
  let n := c.toNat
  (9 ≤ n && n ≤ 13) || n == 0x20 || n == 0x85 || n == 0xA0 || n == 0x1680 ||
    (0x2000 ≤ n && n ≤ 0x200A) || n == 0x2028 || n == 0x2029 || n == 0x202F || n == 0x205F ||
    n == 0x3000

/-- `s` without the longest ending whose characters satisfy `p`. -/
def dropWhileEnd (p : Char → Bool) (s : List Char) : List Char :=
  (s.reverse.dropWhile p).reverse

/-- `s` without the white space around it. -/
def trim (s : List Char) : List Char := dropWhileEnd isBlank (s.dropWhile isBlank)

/-- The pieces of `s` between the characters `sep`, one more than there are such characters. -/
def splitOn (sep : Char) : List Char → List (List Char)
  | [] => [[]]
  | c :: rest =>
      if c = sep then [] :: splitOn sep rest
      else
        match splitOn sep rest with
        | [] => [[c]]
        | piece :: more => (c :: piece) :: more

/-- What stands before and after the first `sep` of `s`, if there is one. -/
def splitOnce (sep : Char) : List Char → Option (List Char × List Char)
  | [] => none
  | c :: rest =>
      if c = sep then some ([], rest)
      else (splitOnce sep rest).map fun (before, after) => (c :: before, after)

/-- The first word of `s`: its first run of characters that are no white space. -/
def firstWord (s : List Char) : List Char :=
  (s.dropWhile isBlank).takeWhile fun c => !isBlank c

/-- The trimmed lines of `s`, those left out of which nothing remains. -/
def filledLines (s : List Char) : List (List Char) :=
  ((splitOn '\n' s).map trim).filter fun line => !line.isEmpty

/-- `s` without any number of copies of `start` at its beginning. -/
def dropStarts (start : List Char) (s : List Char) : List Char :=
  if _h : start ≠ [] ∧ start <+: s then dropStarts start (s.drop start.length) else s
termination_by s.length
decreasing_by
  have hpos := List.length_pos_iff.2 _h.1
  have hle := _h.2.length_le
  simp only [List.length_drop]
  omega

end Dockboard.Text
