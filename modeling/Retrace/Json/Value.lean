import Retrace.Numeral.Basic

/-!
# Document values

The values that documents are made of. An integer is kept apart from a numeral,
because only an integer can be an offset or the number of a node; where a
numeral is asked for, an integer will do. The fields of an object keep the order
in which they were written.

A document may hold a value that is well formed and yet cannot be read, such as a
number that no double reaches. It does no harm where nobody asks for it, so it is
kept, and it is refused wherever a value of some kind is asked for.
-/

namespace Retrace

/-- A value of a document. -/
inductive Json where
  | null
  | bool (value : Bool)
  | int (value : Int)
  | real (value : Numeral)
  | str (value : String)
  | arr (items : List Json)
  | obj (fields : List (String × Json))
  | unreadable

namespace Json

mutual

/-- The value can be read, and so can everything in it. -/
def isReadable : Json → Bool
  | .unreadable => false
  | .arr items => itemsReadable items
  | .obj fields => fieldsReadable fields
  | _ => true

/-- The items of an array can all be read. -/
def itemsReadable : List Json → Bool
  | [] => true
  | item :: rest => isReadable item && itemsReadable rest

/-- The fields of an object can all be read. -/
def fieldsReadable : List (String × Json) → Bool
  | [] => true
  | (_, value) :: rest => isReadable value && fieldsReadable rest

end

/-- A natural number as a value. -/
def nat (n : Nat) : Json := .int n

/-- A value that may be missing, which is then null. -/
def orNull {α : Type} (encode : α → Json) : Option α → Json
  | some value => encode value
  | none => .null

/-- A list of values, each encoded the same way. -/
def list {α : Type} (encode : α → Json) (items : List α) : Json := .arr (items.map encode)

/-- A field that is left out if there is no value. -/
def fieldIfSome {α : Type} (name : String) (encode : α → Json) (value : Option α) :
    List (String × Json) :=
  (value.map fun v => (name, encode v)).toList

/-- The fields of an object. -/
def asFields? : Json → Option (List (String × Json))
  | .obj fields => some fields
  | _ => none

/-- The fields of an object that is read as a whole, those included that nobody asks
for. -/
def asWholeFields? (value : Json) : Option (List (String × Json)) :=
  if value.isReadable then value.asFields? else none

/-- The items of an array. -/
def asItems? : Json → Option (List Json)
  | .arr items => some items
  | _ => none

/-- A truth value. -/
def asBool? : Json → Option Bool
  | .bool value => some value
  | _ => none

/-- A string. -/
def asString? : Json → Option String
  | .str value => some value
  | _ => none

/-- A natural number below a bound. -/
def asNatBelow? (bound : Nat) : Json → Option Nat
  | .int n => if 0 ≤ n ∧ n < bound then some n.toNat else none
  | _ => none

/-- A numeral; an integer is read as the nearest one. -/
def asNumeral? : Json → Option Numeral
  | .real x => some x
  | .int n => Numeral.ofInt? n
  | _ => none

/-- A string of exactly one character. -/
def asChar? : Json → Option Char
  | .str value =>
    match value.toList with
    | [c] => some c
    | _ => none
  | _ => none

/-- A list whose items are all read the same way. -/
def asList? {α : Type} (decode : Json → Option α) : Json → Option (List α)
  | .arr items => items.mapM decode
  | _ => none

/-- A name, written as a string or as the only key of an object that holds null. -/
def asName? : Json → Option String
  | .str name => some name
  | .obj [(name, .null)] => some name
  | _ => none

/-- A name within an object that is read as a whole, where the only key of an object
may also hold an empty object. -/
def asInnerName? : Json → Option String
  | .obj [(name, .obj [])] => some name
  | value => value.asName?

/-- One of some things that are known by their names. -/
def asOneOf? {α : Type} (all : List α) (name : α → String) (value : Json) : Option α := do
  let written ← value.asName?
  all.find? fun a => name a == written

/-- The field of an object with a given name. -/
def field? (fields : List (String × Json)) (name : String) : Option Json := fields.lookup name

/-- A field that has to be there. -/
def required? {α : Type} (fields : List (String × Json)) (name : String)
    (decode : Json → Option α) : Option α :=
  (field? fields name).bind decode

/-- A field that has a value of its own if it is not there. -/
def defaulted? {α : Type} (fields : List (String × Json)) (name : String) (default : α)
    (decode : Json → Option α) : Option α :=
  match field? fields name with
  | some value => decode value
  | none => some default

/-- A field that may be missing or null. -/
def optional? {α : Type} (fields : List (String × Json)) (name : String)
    (decode : Json → Option α) : Option (Option α) :=
  match field? fields name with
  | none => some none
  | some .null => some none
  | some value => (decode value).map some

end Json

end Retrace
