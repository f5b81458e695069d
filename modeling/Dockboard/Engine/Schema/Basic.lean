import Dockboard.Document.Record
import Dockboard.Text.Numeral

set_option autoImplicit false

/-! # What the daemon's documents are made of

The daemon's answers are described field by field, in the order in which they are shown. Most
fields may be missing or null, and then they say nothing:

    optional name value        a field that may be missing or null
    moment name                a point in time, which may be missing or null
    required name value        a field that must be there and say something
    requiredLabels name, requiredTexts name, requiredOneOf name words
                               fields that must be there, but may be null

What is not described is not shown.
-/

namespace Dockboard.Engine.Schema

open Document Document.Reader
open Dockboard.Text

/-! ## Values -/

/-- A signed number of 64 bits. -/
def int : Reader Document := integer (-9223372036854775808) 9223372036854775807

/-- A signed number of 32 bits. -/
def int32 : Reader Document := integer (-2147483648) 2147483647

/-- A number of 64 bits without a sign. -/
def count : Reader Document := integer 0 Numeral.max64

/-- A number of 32 bits without a sign. -/
def count32 : Reader Document := integer 0 Numeral.max32

/-- A number of 16 bits without a sign. -/
def count16 : Reader Document := integer 0 65535

/-- A list of texts. -/
def texts : Reader Document := list text

/-- A record of texts. -/
def labels : Reader Document := map text

/-- A record that only has names, whose values are empty records. -/
def names : Reader Document := map emptyMap

/-! ## Fields -/

/-- A field that must be there. -/
def required (name : String) (value : Reader Document) : ExpectedField := { name, value }

/-- A field that may be missing or null. -/
def optional (name : String) (value : Reader Document) : ExpectedField :=
  { name, value := orNull value, absence := .nothing }

/-- A point in time that may be missing or null, even at the end of a record that is written as a
list. -/
def moment (name : String) : ExpectedField :=
  { name, value := orNull text, absence := .usual .nothing }

/-- A field that must be there, but may be null or empty. -/
def requiredOneOf (name : String) (words : List String) : ExpectedField :=
  required name (orNull (unlessEmpty (word words)))

/-- A field that must be there, where null stands for no texts. -/
def requiredTexts (name : String) : ExpectedField := required name (orNullAs (.list []) texts)

/-- A field that must be there, where null stands for no labels. -/
def requiredLabels (name : String) : ExpectedField := required name (orNullAs (.record []) labels)

/-- Fields of one kind that must be there. -/
def requiredAll (value : Reader Document) (names : List String) : List ExpectedField :=
  names.map fun name => required name value

/-- Fields of one kind that may be missing or null. -/
def optionalAll (value : Reader Document) (names : List String) : List ExpectedField :=
  names.map fun name => optional name value

/-! ## Errors and effects -/

/-- What an answer with an error status says. -/
def errorMessage : Reader Document := record [required "message" text]

/-- What has been removed of the things in the field `name`, and how much space that gives. -/
def pruned (name : String) (items : Reader Document) : Reader Document :=
  record [optional name items, optional "SpaceReclaimed" int]

end Dockboard.Engine.Schema
