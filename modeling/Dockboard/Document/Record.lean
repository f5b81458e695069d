import Dockboard.Document.Reader

set_option autoImplicit false

/-! # Reading records

A record is described by the fields it is expected to have. They stand in a document in any order,
each of them at most once, among others that are skipped:

    record fields        a record among whose fields these are
    closedRecord fields  a record with these fields and no others

A record may also be written as the list of its fields, in their order and without their names.
-/

namespace Dockboard.Document.Reader

/-- What the absence of a field means. -/
inductive Absence where
  /-- A fault. -/
  | mismatch
  /-- That the field says nothing. -/
  | nothing
  /-- That the field has its usual value. -/
  | usual (value : Document)

/-- A field that a record is expected to have. -/
structure ExpectedField where
  name : String
  value : Reader Document
  absence : Absence := .mismatch
  /-- What the field may be called instead. -/
  otherNames : List String := []

namespace ExpectedField

/-- Whether the field may be called `key`. -/
def isCalled (key : String) (f : ExpectedField) : Bool := f.name == key || f.otherNames.contains key

/-- The value of a field that is absent. -/
def ifAbsent (f : ExpectedField) : Reader Document :=
  match f.absence with
  | .mismatch => fail .mismatch
  | .nothing => return .nothing
  | .usual value => return value

end ExpectedField

/-- Read the field called `key`. A field that is expected may stand only once; of one that is
not, the value is read by `other`. -/
def member (fields : List ExpectedField) (other : Reader Unit) (key : String)
    (read : List (String × Document)) : Reader (List (String × Document)) := do
  match fields.find? (·.isCalled key) with
  | none => do other; return read
  | some f => do
      if read.any (·.1 == f.name) then fail .mismatch
      colon
      return (f.name, ← f.value) :: read

/-- The fields in their order, those absent included. -/
def complete (fields : List ExpectedField) (read : List (String × Document)) :
    Reader (List (String × Document)) :=
  fields.mapM fun f =>
    match read.find? (·.1 == f.name) with
    | some entry => return entry
    | none => return (f.name, ← f.ifAbsent)

/-- The fields of a record that is written as a list, of which nothing has been read if
`first`. Such a list may break off only before fields that have a usual value. -/
def positional (first : Bool) : List ExpectedField → Reader (List (String × Document))
  | [] => do
      match ← peek with
      | none => fail .truncated
      | some ']' => do discard next; return []
      | some _ => fail .malformed
  | f :: rest => do
      match ← peek with
      | none => fail .truncated
      | some ']' =>
          match f.absence with
          | .usual value => return (f.name, value) :: (← positional first rest)
          | _ => fail .mismatch
      | some c => do
          if !first then if c = ',' then discard next else fail .malformed
          let value ← f.value
          return (f.name, value) :: (← positional false rest)

/-- The record with these fields, without those that say nothing. -/
def ofFields (fields : List (String × Document)) : Document :=
  .record (fields.filter fun entry => !entry.2.isNothing)

/-- A record. The value of a field that is not expected is read by `other`. -/
def recordWith (other : Reader Unit) (fields : List ExpectedField) : Reader Document := do
  match ← peek with
  | some '[' => do discard next; return ofFields (← positional true fields)
  | some '\x7b' => do
      discard next
      let read ← recordBody true (member fields other) []
      return ofFields (← complete fields read)
  | _ => misplaced

/-- A record among whose fields these are. -/
def record (fields : List ExpectedField) : Reader Document :=
  recordWith (do colon; skip) fields

/-- A record with these fields and no others. -/
def closedRecord (fields : List ExpectedField) : Reader Document :=
  recordWith (fail .mismatch) fields

end Dockboard.Document.Reader
