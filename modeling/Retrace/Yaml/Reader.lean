import Retrace.Yaml.Flow

/-!
# Reading YAML

The part of YAML that settings are written in: mappings whose keys stand in one
column, deeper mappings under a key, scalars on the line of their key, and values
in brackets or braces. A text without any content is an empty mapping.

The lines are read with a stack of the mappings that are still open, the deepest
first. A line closes the mappings that stand deeper than itself.
-/

namespace Retrace.Yaml

/-- A line with content: the column it starts in and what it says. -/
structure Line where
  column : Nat
  content : List Char

/-- Whether a character of a line stands within quotes. -/
inductive LinePart where
  | outside (afterBreak : Bool)
  | inside (state : QuoteState)

/-- Cuts off the comment of a line. A comment starts the line or follows a blank. -/
def withoutComment : LinePart → List Char → List Char
  | _, [] => []
  | .outside afterBreak, c :: rest =>
    if afterBreak && c = '#' then []
    else if afterBreak && c = '"' then c :: withoutComment (.inside .double) rest
    else if afterBreak && c = '\x27' then c :: withoutComment (.inside .single) rest
    else c :: withoutComment (.outside (isBlank c || c ∈ [',', '[', '\x7b'])) rest
  | .inside state, c :: rest =>
    match quoteStep? state c with
    | some (.more _ next) => c :: withoutComment (.inside next) rest
    | _ => c :: withoutComment (.outside (isBlank c)) rest

/-- The line with its content, if it has any. -/
def lineOf (text : String) : Option Line :=
  let chars := trimEnd (withoutComment (.outside true) text.toList)
  let content := chars.dropWhile (· = ' ')
  if content.isEmpty then none else some ⟨chars.length - content.length, content⟩

/-- The lines of a text that have content, without the marks at the start and at
the end of a document. -/
def contentLines (text : String) : List Line :=
  let lines := (text.splitOn "\n").filterMap lineOf
  let lines :=
    match lines with
    | ⟨0, ['-', '-', '-']⟩ :: rest => rest
    | lines => lines
  match lines.reverse with
  | ⟨0, ['.', '.', '.']⟩ :: rest => rest.reverse
  | _ => lines

/-- Splits a line after a plain key. -/
def plainKey? (done : List Char) : List Char → Option (String × List Char)
  | [] => none
  | ':' :: rest =>
    if rest.head?.all isBlank then some (String.ofList (trimEnd done.reverse), trimStart rest)
    else plainKey? (':' :: done) rest
  | c :: rest => plainKey? (c :: done) rest

/-- The character has a meaning at the start of a plain scalar. -/
def isIndicator (c : Char) : Bool :=
  c ∈ ['&', '*', '!', '|', '>', '%', '@', '\x60', '[', ']', '\x7b', '\x7d', ',', '#', '\t']

/-- The content starts with a mark of a sequence or of a complex key. -/
def startsEntry : List Char → Bool
  | [c] => c ∈ ['-', '?', ':']
  | c :: next :: _ => c ∈ ['-', '?', ':'] && isBlank next
  | [] => false

/-- Splits a line after its key. -/
def keyOf? (content : List Char) : Option (String × List Char) :=
  if content.head?.any isQuote then do
    let (key, rest) ← quoted? content
    match trimStart rest with
    | ':' :: rest => if rest.head?.all isBlank then some (key, trimStart rest) else none
    | _ => none
  else if content.head?.any isIndicator || startsEntry content then none
  else plainKey? [] content

/-- Reads the value that stands on the line of its key; there may be none. -/
def valueOf? (content : List Char) : Option (Option Json) :=
  match content with
  | [] => some none
  | c :: _ =>
    if isQuote c then do
      let (text, rest) ← quoted? content
      if (trimStart rest).isEmpty then some (some (.str text)) else none
    else if c = '[' ∨ c = '\x7b' then (flowValue? content).map some
    else if isIndicator c || startsEntry content || (plainKey? [] content).isSome then none
    else some (some (plainValue (String.ofList content)))

/-- A mapping that is still open: the column of its keys, its fields so far, and
the key whose value is still to come. -/
structure Frame where
  column : Nat
  fields : List (String × Json)
  pending : Option String

namespace Frame

/-- Gives a value to the pending key. -/
def settle (f : Frame) (value : Json) : Frame :=
  match f.pending with
  | some key => { f with fields := f.fields ++ [(key, value)], pending := none }
  | none => f

/-- The fields of a mapping that is complete. -/
def close (f : Frame) : Json := .obj (f.settle .null).fields

/-- Reads a line of the mapping. -/
def add? (f : Frame) (content : List Char) : Option Frame := do
  let (key, rest) ← keyOf? content
  let f := { f.settle .null with pending := some key }
  match ← valueOf? rest with
  | some value => return f.settle value
  | none => return f

end Frame

/-- Closes the mappings that stand deeper than a column. -/
def closeDeeper (column : Nat) : List Frame → List Frame
  | [] => []
  | [f] => [f]
  | f :: outer :: rest =>
    if column < f.column then closeDeeper column (outer.settle f.close :: rest)
    else f :: outer :: rest
termination_by frames => frames.length

/-- Reads a line. -/
def step? (frames : List Frame) (line : Line) : Option (List Frame) :=
  match closeDeeper line.column frames with
  | [] => do return [← Frame.add? ⟨line.column, [], none⟩ line.content]
  | f :: rest =>
    if f.column = line.column then do return (← f.add? line.content) :: rest
    else if f.column < line.column ∧ f.pending.isSome then do
      return (← Frame.add? ⟨line.column, [], none⟩ line.content) :: f :: rest
    else none

/-- Closes every mapping that is still open. -/
def closeAll : List Frame → Json
  | [] => .obj []
  | [f] => f.close
  | f :: outer :: rest => closeAll (outer.settle f.close :: rest)
termination_by frames => frames.length

/-- Reads a text. -/
def parse? (text : String) : Option Json :=
  let lines := contentLines text
  match lines with
  | ⟨_, c :: _⟩ :: _ =>
    if c = '[' ∨ c = '\x7b' then
      flowValue? (List.intercalate ['\n'] (lines.map (·.content)))
    else (lines.foldlM step? []).map closeAll
  | _ => some (.obj [])

end Retrace.Yaml
