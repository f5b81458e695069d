set_option autoImplicit false

/-! # Documents

The daemon and its command line answer with JSON documents. A document that has been read holds
only what was expected of it: the fields of a record stand in the order in which they were
expected, and what is absent or null is left out. Numbers are whole, as none that is asked for
is anything else.

What is asked of a document that it does not hold is nothing, no text, zero, false or the empty
list, so that a document can be taken apart without regard to what may be absent.
-/

namespace Dockboard

/-- A document that has been read. -/
inductive Document where
  | nothing
  | flag (value : Bool)
  | number (value : Int)
  | text (value : String)
  | list (items : List Document)
  | record (fields : List (String × Document))
  deriving Repr, Inhabited

namespace Document

/-- Whether a document holds nothing. -/
def isNothing : Document → Bool
  | nothing => true
  | _ => false

/-- The field of that name. -/
def field (name : String) : Document → Document
  | record fields => ((fields.find? fun entry => entry.1 == name).map Prod.snd).getD nothing
  | _ => nothing

/-- A text. -/
def text? : Document → Option String
  | text value => some value
  | _ => none

/-- A number. -/
def number? : Document → Option Int
  | number value => some value
  | _ => none

/-- The elements of a list. -/
def items : Document → List Document
  | list items => items
  | _ => []

/-- The values of a record. -/
def values : Document → List Document
  | record fields => fields.map Prod.snd
  | _ => []

/-- The text in a field. -/
def textAt (d : Document) (name : String) : String := (d.field name).text?.getD ""

/-- The number in a field. -/
def numberAt (d : Document) (name : String) : Int := (d.field name).number?.getD 0

/-- The number in a field that holds no negative one. -/
def countAt (d : Document) (name : String) : Nat := (d.numberAt name).toNat

/-- Whether a field says yes. -/
def flagAt (d : Document) (name : String) : Bool :=
  match d.field name with
  | flag value => value
  | _ => false

/-- The elements of the list in a field. -/
def itemsAt (d : Document) (name : String) : List Document := (d.field name).items

end Document

end Dockboard
