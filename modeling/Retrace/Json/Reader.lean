import Retrace.Json.Token

/-!
# Reading documents

The tokens of a document are read with a stack of the arrays and objects that
are still open. What may come next is part of the state, so the reader looks at
one token at a time and never goes back.

Arrays and objects are read down to a certain depth. Those below it have to be
well formed but cannot be read, and neither can an object with a broken name.
-/

namespace Retrace.Json

/-- An array or object that is still open, with what it holds so far in reverse. -/
inductive Frame where
  | array (items : List Json)
  | object (fields : List (Option String × Json))
  | member (fields : List (Option String × Json)) (name : Option String)

/-- What may come next. -/
inductive Expect where
  | value
  | valueOrEnd
  | name
  | nameOrEnd
  | colon
  | commaOrEnd
  | nothing
deriving DecidableEq

/-- The number of arrays and objects that may lie in each other. -/
def depthLimit : Nat := 127

/-- The value of an array or object, given the frames around it. -/
def within (frames : List Frame) (value : Json) : Json :=
  if (frames.drop (depthLimit - 1)).isEmpty then value else .unreadable

/-- A string with escapes as a value; nothing stands for a broken one. -/
def ofEscaped : Option String → Json
  | some text => .str text
  | none => .unreadable

/-- A string with escapes as a name. One that would be a number is marked, since a
number is only known by plain digits. -/
def escapedName (text : String) : String :=
  if text.toList.all Char.isDigit then "\\" ++ text else text

/-- The object with some fields. -/
def ofFields (fields : List (Option String × Json)) : Json :=
  match fields.mapM fun (name, value) => name.map (·, value) with
  | some fields => .obj fields
  | none => .unreadable

/-- The open frames, what may come next, and the value once it is complete. -/
structure Reader where
  stack : List Frame
  expect : Expect
  result : Option Json

namespace Reader

/-- Puts a complete value where it belongs. -/
def place (r : Reader) (value : Json) : Option Reader :=
  match r.stack with
  | [] => some ⟨[], .nothing, some value⟩
  | .array items :: rest => some ⟨.array (value :: items) :: rest, .commaOrEnd, none⟩
  | .member fields name :: rest =>
    some ⟨.object ((name, value) :: fields) :: rest, .commaOrEnd, none⟩
  | .object _ :: _ => none

/-- A value may come next. -/
def takesValue (r : Reader) : Bool := r.expect = .value || r.expect = .valueOrEnd

/-- Reads a string, given what it is as a value and as a name. -/
def takeString (r : Reader) (value : Json) (name : Option String) : Option Reader :=
  if r.takesValue then r.place value
  else if r.expect = .name ∨ r.expect = .nameOrEnd then
    match r.stack with
    | .object fields :: rest => some ⟨.member fields name :: rest, .colon, none⟩
    | _ => none
  else none

/-- Reads a token. -/
def step (r : Reader) (token : Token) : Option Reader :=
  match token with
  | .scalar value => if r.takesValue then r.place value else none
  | .str text => r.takeString (.str text) (some text)
  | .escapedStr text => r.takeString (ofEscaped text) (text.map escapedName)
  | .openBracket =>
    if r.takesValue then some ⟨.array [] :: r.stack, .valueOrEnd, none⟩ else none
  | .openBrace =>
    if r.takesValue then some ⟨.object [] :: r.stack, .nameOrEnd, none⟩ else none
  | .closeBracket =>
    if r.expect = .valueOrEnd ∨ r.expect = .commaOrEnd then
      match r.stack with
      | .array items :: rest =>
        place ⟨rest, .nothing, none⟩ (within rest (.arr items.reverse))
      | _ => none
    else none
  | .closeBrace =>
    if r.expect = .nameOrEnd ∨ r.expect = .commaOrEnd then
      match r.stack with
      | .object fields :: rest =>
        place ⟨rest, .nothing, none⟩ (within rest (ofFields fields.reverse))
      | _ => none
    else none
  | .colon => if r.expect = .colon then some { r with expect := .value } else none
  | .comma =>
    if r.expect = .commaOrEnd then
      match r.stack with
      | .array _ :: _ => some { r with expect := .value }
      | .object _ :: _ => some { r with expect := .name }
      | _ => none
    else none

end Reader

/-- The value that some tokens stand for. -/
def ofTokens? (tokens : List Token) : Option Json := do
  let r ← tokens.foldlM Reader.step ⟨[], .value, none⟩
  r.result

/-- The value that a text stands for, if it is a document. -/
def parse? (text : String) : Option Json := do
  ofTokens? (← tokens? text.toList)

end Retrace.Json
