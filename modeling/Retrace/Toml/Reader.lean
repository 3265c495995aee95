import Retrace.Json.Reader
import Retrace.Toml.Token

/-!
# Reading TOML

The part of TOML that settings are written in: headers, dotted keys, strings,
truth values, integers, arrays and inline tables, each item on a line of its own.

A key is given a value once. A table is opened by a header once, and not at all
if it was made by dotted keys; a header cannot go through a value, nor can dotted
keys go through a table with a header of its own.
-/

namespace Retrace.Toml

/-- The names that lead to a value or a table. -/
abbrev Key := List String

/-- What a line says. -/
inductive Line where
  | blank
  | header (key : Key)
  | assignment (key : Key) (value : Json)

/-- A name that is part of a key. -/
def nameOf? : Token → Option String
  | .word text => if text.toList.all isBareChar then some text else none
  | .quoted text => some text
  | .mark _ => none

/-- Reads a key, whose names are divided by points, up to a given mark. -/
def keyUntil? (stop : Char) : List Token → Option (Key × List Token)
  | token :: .mark c :: rest => do
    let name ← nameOf? token
    if c = stop then return ([name], rest)
    else if c = '.' then
      let (names, rest) ← keyUntil? stop rest
      return (name :: names, rest)
    else none
  | _ => none

/-- The digits of an integer, which may be grouped by single underscores. -/
def digits? : List Char → Option (List Nat)
  | [] => none
  | [c] => if c.isDigit then some [Json.digitValue c] else none
  | c :: '_' :: rest => if c.isDigit then (digits? rest).map (Json.digitValue c :: ·) else none
  | c :: rest => if c.isDigit then (digits? rest).map (Json.digitValue c :: ·) else none

/-- Reads an integer without its sign. -/
def natural? (text : List Char) : Option Nat := do
  match ← digits? text with
  | 0 :: _ :: _ => none
  | digits => return Json.decimalValue digits

/-- Reads an integer. -/
def integer? (text : List Char) : Option Int :=
  match text with
  | '+' :: rest => (natural? rest).map fun n => (n : Int)
  | '-' :: rest => (natural? rest).map fun n => -(n : Int)
  | rest => (natural? rest).map fun n => (n : Int)

/-- The value of a word. -/
def wordValue? (text : String) : Option Json :=
  if text = "true" then some (.bool true)
  else if text = "false" then some (.bool false)
  else (integer? text.toList).map .int

/-- The tokens of a value as tokens of a document. -/
def valueTokens? : List Token → Option (List Json.Token)
  | [] => some []
  | .mark c :: rest => do
    let rest ← valueTokens? rest
    if c = '[' then return .openBracket :: rest
    else if c = ']' then return .closeBracket :: rest
    else if c = '\x7b' then return .openBrace :: rest
    else if c = '\x7d' then return .closeBrace :: rest
    else if c = ',' then return .comma :: rest
    else none
  | token :: .mark '=' :: rest => do
    return .str (← nameOf? token) :: .colon :: (← valueTokens? rest)
  | .word text :: rest => do
    return .scalar (← wordValue? text) :: (← valueTokens? rest)
  | .quoted text :: rest => do
    return .str text :: (← valueTokens? rest)

/-- Reads a line. -/
def lineOf? (line : List Char) : Option Line := do
  match ← tokens? line with
  | [] => return .blank
  | .mark '[' :: rest =>
    match ← keyUntil? ']' rest with
    | (key, []) => return .header key
    | _ => none
  | tokens =>
    let (key, rest) ← keyUntil? '=' tokens
    return .assignment key (← Json.ofTokens? (← valueTokens? rest))

/-- A value that has been given, the table it was given in and its key from the
top. -/
structure Given where
  table : Key
  key : Key
  value : Json

/-- The headers and values read so far, the last first, and the open table. -/
structure Document where
  headers : List Key
  given : List Given
  table : Key

namespace Document

/-- One of two keys leads through the other. -/
def comparable (a b : Key) : Bool := a.isPrefixOf b || b.isPrefixOf a

/-- A header can open the table. -/
def admitsHeader (d : Document) (key : Key) : Bool :=
  !(key ∈ d.headers) &&
    d.given.all fun g =>
      !g.key.isPrefixOf key && (!key.isPrefixOf g.key || key.length ≤ g.table.length)

/-- A value can be given for a key of the open table. -/
def admitsValue (d : Document) (key : Key) : Bool :=
  let full := d.table ++ key
  d.given.all (fun g => !comparable g.key full) &&
    d.headers.all (fun h => !full.isPrefixOf h) &&
    (List.range key.length).all fun n => n = 0 || !(d.table ++ key.take n ∈ d.headers)

/-- Reads a line. -/
def step (d : Document) (line : Line) : Option Document :=
  match line with
  | .blank => some d
  | .header key =>
    if d.admitsHeader key then some { d with headers := key :: d.headers, table := key } else none
  | .assignment key value =>
    if d.admitsValue key then
      some { d with given := ⟨d.table, d.table ++ key, value⟩ :: d.given }
    else none

/-- Changes the fields of the table under a name, which may be missing so far. -/
def update (name : String) (f : List (String × Json) → List (String × Json)) :
    List (String × Json) → List (String × Json)
  | [] => [(name, .obj (f []))]
  | (n, value) :: rest =>
    if n = name then
      match value with
      | .obj fields => (n, .obj (f fields)) :: rest
      | value => (n, value) :: rest
    else (n, value) :: update name f rest

/-- Makes sure that there is a table at a key, and puts a field into it. -/
def place (field : Option (String × Json)) : Key → List (String × Json) → List (String × Json)
  | [], fields => fields ++ field.toList
  | name :: rest, fields => update name (place field rest) fields

/-- Puts a value in its place. -/
def placeGiven (fields : List (String × Json)) (g : Given) : List (String × Json) :=
  match g.key.getLast? with
  | some name => place (some (name, g.value)) g.key.dropLast fields
  | none => fields

/-- The fields of the whole document. -/
def fields (d : Document) : List (String × Json) :=
  d.given.reverse.foldl placeGiven (d.headers.reverse.foldl (fun fs key => place none key fs) [])

end Document

/-- The lines of a text, each without the mark at its end. -/
def linesOf (text : String) : List (List Char) :=
  (text.splitOn "\n").map fun line =>
    match line.toList.reverse with
    | '\r' :: rest => rest.reverse
    | _ => line.toList

/-- Reads a text. -/
def parse? (text : String) : Option Json := do
  let lines ← (linesOf text).mapM lineOf?
  return .obj (← lines.foldlM Document.step ⟨[], [], []⟩).fields

end Retrace.Toml
