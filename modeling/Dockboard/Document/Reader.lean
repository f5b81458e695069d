import Dockboard.Document.Basic
import Dockboard.Document.Number

set_option autoImplicit false

/-! # Reading documents

A reader knows what it expects. What it meets instead is a mismatch, unless it is no JSON at all:
a string, a number or a word is read to its end before it is found out of place, while a list or
a record is out of place as soon as it begins. The first fault from left to right counts.

    text, flag, integer low high, word words     single values
    oneOf words                                  a word that may be a field without a value
    list item, map item, emptyMap                values made of others
    orNull value, unlessEmpty value              values of which some say nothing
    any depth                                    whatever is there
    choice values                                what can be read in one of several ways
-/

namespace Dockboard.Document

open Dockboard.Text

namespace Reader

/-! ## Single values -/

/-- Read what is out of place. -/
def misplaced {α : Type} : Reader α := do
  match ← peek with
  | none => fail .truncated
  | some '"' => do discard next; discard (string true); fail .mismatch
  | some 'n' => do letters ['n', 'u', 'l', 'l']; fail .mismatch
  | some 't' => do letters ['t', 'r', 'u', 'e']; fail .mismatch
  | some 'f' => do letters ['f', 'a', 'l', 's', 'e']; fail .mismatch
  | some c =>
      if c = '[' || c = '\x7b' then fail .mismatch
      else if c = '-' || c.isDigit then do discard (number true); fail .mismatch
      else fail .malformed

/-- A string. -/
def text : Reader Document := do
  if (← peek) = some '"' then do
    discard next
    return .text (← string true)
  else misplaced

/-- One of the two truth values. -/
def flag : Reader Document := do
  match ← peek with
  | some 't' => do letters ['t', 'r', 'u', 'e']; return .flag true
  | some 'f' => do letters ['f', 'a', 'l', 's', 'e']; return .flag false
  | _ => misplaced

/-- A whole number from `low` to `high`. -/
def integer (low high : Int) : Reader Document := do
  match ← peek with
  | some c =>
      if c = '-' || c.isDigit then
        match ← number true with
        | some n => if low ≤ n && n ≤ high then return .number n else fail .mismatch
        | none => fail .mismatch
      else misplaced
  | none => fail .truncated

/-- A string that is one of `words`, or empty. -/
def word (words : List String) : Reader Document := do
  match ← text with
  | .text s => if s.isEmpty || words.contains s then return .text s else fail .mismatch
  | _ => fail .mismatch

/-- The same, but the empty string says nothing. -/
def unlessEmpty (value : Reader Document) : Reader Document := do
  match ← value with
  | .text "" => return .nothing
  | d => return d

/-- The same, or null, which stands for `instead`. -/
def orNullAs (instead : Document) (value : Reader Document) : Reader Document := do
  if (← peek) = some 'n' then do
    letters ['n', 'u', 'l', 'l']
    return instead
  else value

/-- The same, or null, which says nothing. -/
def orNull (value : Reader Document) : Reader Document := orNullAs .nothing value

/-! ## Lists -/

/-- What stands up to the closing bracket. -/
def elements {α : Type} (item : Reader α) : Fuel → Reader (List α)
  | [] => fail .truncated
  | _ :: fuel => do
      let x ← item
      match ← peek with
      | none => fail .truncated
      | some ']' => do discard next; return [x]
      | some ',' => do discard next; return x :: (← elements item fuel)
      | some _ => fail .malformed

/-- The elements of a list whose opening bracket has been taken off. -/
def listBody {α : Type} (item : Reader α) : Reader (List α) := do
  if (← peek) = some ']' then do
    discard next
    return []
  else fueled (elements item)

/-- A list. -/
def list (item : Reader Document) : Reader Document := do
  if (← peek) = some '[' then do
    discard next
    return .list (← listBody item)
  else misplaced

/-! ## Fields -/

/-- The name of a field. -/
def name (strict : Bool) : Reader String := do
  match ← peek with
  | none => fail .truncated
  | some '"' => do discard next; string strict
  | some _ => fail .malformed

/-- The colon between a name and its value. -/
def colon : Reader Unit := do
  match ← peek with
  | none => fail .truncated
  | some ':' => discard next
  | some _ => fail .malformed

/-- The fields up to the closing brace. Each of them is read by `member` once its name has been
taken off, and added to what has been `read`. -/
def members {σ : Type} (strict : Bool) (member : String → σ → Reader σ) (read : σ) :
    Fuel → Reader σ
  | [] => fail .truncated
  | _ :: fuel => do
      let key ← name strict
      let read ← member key read
      match ← peek with
      | none => fail .truncated
      | some '\x7d' => do discard next; return read
      | some ',' => do discard next; members strict member read fuel
      | some _ => fail .malformed

/-- The fields of a record whose opening brace has been taken off. -/
def recordBody {σ : Type} (strict : Bool) (member : String → σ → Reader σ) (start : σ) :
    Reader σ := do
  if (← peek) = some '\x7d' then do
    discard next
    return start
  else fueled (members strict member start)

/-- The fields with the value of one replaced, or with that field added at the end. -/
def put (key : String) (value : Document) (fields : List (String × Document)) :
    List (String × Document) :=
  if fields.any (·.1 == key) then
    fields.map fun entry => if entry.1 == key then (key, value) else entry
  else fields ++ [(key, value)]

/-- A record whose names are not known beforehand. The last of several fields with one name
counts. -/
def map (item : Reader Document) : Reader Document := do
  if (← peek) = some '\x7b' then do
    discard next
    return .record (← recordBody true
      (fun key fields => do colon; return put key (← item) fields) [])
  else misplaced

/-- A record without any fields. -/
def emptyMap : Reader Document := do
  if (← peek) = some '\x7b' then do
    discard next
    return .record (← recordBody true (fun _ _ => fail .mismatch) [])
  else misplaced

/-- One of `words`, or the empty string. It may also be the name of the only field of a record,
which then is null. Anything else is no JSON here. -/
def oneOf (words : List String) : Reader Document := do
  match ← peek with
  | none => fail .truncated
  | some '"' => word words
  | some '\x7b' => do
      discard next
      let chosen ← word words
      colon
      match ← peek with
      | some 'n' => letters ['n', 'u', 'l', 'l']
      | _ => misplaced
      match ← peek with
      | none => fail .truncated
      | some '\x7d' => do discard next; return chosen
      | some _ => fail .malformed
  | some _ => fail .malformed

/-! ## Values of any kind -/

/-- A value of any kind, with values in brackets that are read by `inner`. Without one there must
be no brackets. A number that is not whole is nothing. -/
def valueWith (strict : Bool) (inner : Option (Reader Document)) : Reader Document := do
  match ← peek with
  | none => fail .truncated
  | some '"' => do discard next; return .text (← string strict)
  | some 'n' => do letters ['n', 'u', 'l', 'l']; return .nothing
  | some 't' => do letters ['t', 'r', 'u', 'e']; return .flag true
  | some 'f' => do letters ['f', 'a', 'l', 's', 'e']; return .flag false
  | some c =>
      if c = '-' || c.isDigit then return ((← number strict).map Document.number).getD .nothing
      else
        match inner with
        | none => fail .malformed
        | some inner =>
            if c = '[' then do discard next; return .list (← listBody inner)
            else if c = '\x7b' then do
              discard next
              return .record (← recordBody strict
                (fun key fields => do colon; return put key (← inner) fields) [])
            else fail .malformed

/-- A value of any kind, with brackets nested as deep as there is fuel. -/
def value (strict : Bool) : Fuel → Reader Document
  | [] => valueWith strict none
  | _ :: fuel => valueWith strict (some (value strict fuel))

/-- How deep brackets may be nested in what is asked for. -/
def maxDepth : Nat := 127

/-- Whatever is there, inside of `depth` brackets. -/
def any (depth : Nat) : Reader Document := value true (List.replicate (maxDepth - depth) 0)

/-- Take off whatever is there, which is not asked for and may be nested as deep as it likes. -/
def skip : Reader Unit := discard (fueled (value false))

/-- What can be read in one of several ways, the first of which counts. It stands inside of
`depth` brackets, and must be a value in any case. -/
def choice (depth : Nat) (values : List (Reader Document)) : Reader Document := fun s => do
  let (_, rest) ← any depth s
  match values.findSome? fun value => (value s).toOption with
  | some (document, _) => return (document, rest)
  | none => .error .mismatch

/-! ## Whole documents -/

/-- The document that all the bytes are. -/
def run (reader : Reader Document) (bytes : List UInt8) : Except JsonFault Document := do
  let (document, rest) ← reader bytes
  if (rest.dropWhile isSpace).isEmpty then return document else .error .malformed

/-- The document that a whole text is. -/
def runText (reader : Reader Document) (s : List Char) : Except JsonFault Document :=
  reader.run (Utf8.encode s)

end Reader

end Dockboard.Document
