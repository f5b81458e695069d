import Dockboard.Text.CaseTable

set_option autoImplicit false

/-! # Lower case

Filters and searches ignore letter case by comparing lower-cased text. Two foldings are in use:

    foldChar   one character by itself; only `İ` becomes two characters,
    lower      a whole text, where `Σ` becomes `ς` at the end of a word and `σ` elsewhere.

On characters other than `Σ` the two agree.
-/

namespace Dockboard.Text

/-- The capital sigma, whose lower case depends on its place in the word. -/
def capitalSigma : Char := 'Σ'

/-- The shift that takes the code point `code` to its lower case, 0 for one without. -/
def lowerShift (code : Nat) : Int :=
  match lowerRuns.find? (fun run =>
      run.1 ≤ code && code ≤ run.2.1 && (code - run.1) % run.2.2.1 == 0) with
  | some run => run.2.2.2
  | none => 0

/-- The lower case of one character, apart from its neighbours. -/
def foldChar (c : Char) : List Char :=
  if c.toNat < 128 then [c.toLower]
  else if c = 'İ' then ['i', '\u0307']
  else [Char.ofNat (Int.toNat (c.toNat + lowerShift c.toNat))]

/-- The characters of `s` lower-cased one by one. -/
def fold (s : List Char) : List Char := s.flatMap foldChar

/-- Whether `c` is a letter that has case. -/
def isCased (c : Char) : Bool := withinBounds casedBounds c.toNat

/-- Whether `c` is passed over when the letters around a `Σ` are looked for. -/
def isCaseIgnorable (c : Char) : Bool := withinBounds ignorableBounds c.toNat

/-- Whether the first character of `s` that is not passed over has case. -/
def meetsCased (s : List Char) : Bool :=
  (s.dropWhile isCaseIgnorable).head?.any isCased

/-- The lower case of the rest of a text, `before` being what precedes it, nearest first. -/
def lowerFrom (before : List Char) : List Char → List Char
  | [] => []
  | c :: rest =>
      let low :=
        if c = capitalSigma then
          if meetsCased before && !meetsCased rest then ['ς'] else ['σ']
        else foldChar c
      low ++ lowerFrom (c :: before) rest

/-- The lower case of a text. -/
def lower (s : List Char) : List Char := lowerFrom [] s

end Dockboard.Text
