import Retrace.Json.Token

/-!
# Tokens of a TOML line

A line of settings is split into words, quoted strings and marks. A comment ends
the line. Strings in double quotes have escapes, strings in single quotes have
none; neither goes on over the end of its line.
-/

namespace Retrace.Toml

/-- A token of a line. -/
inductive Token where
  | word (text : String)
  | quoted (text : String)
  | mark (c : Char)
deriving DecidableEq

/-- What has been begun when a character is read. The characters of an unfinished
token are kept in reverse. -/
inductive LexState where
  | between
  | word (done : List Char)
  | basic (done : List Char)
  | escape (done : List Char)
  | code (done : List Char) (value missing : Nat)
  | verbatim (done : List Char)
  | comment

/-- The tokens found so far, in reverse, and what has been begun. -/
structure Lexer where
  tokens : List Token
  state : LexState

/-- The character may stand in a key that is not quoted. -/
def isBareChar (c : Char) : Bool := c.isAlphanum || c = '_' || c = '-'

/-- The character may stand in a word. -/
def isWordChar (c : Char) : Bool := isBareChar c || c = '+'

/-- The character is a token by itself. -/
def isMark (c : Char) : Bool := c ∈ ['=', '.', ',', '[', ']', '\x7b', '\x7d']

/-- The character cannot stand in a line as it is. -/
def isControl (c : Char) : Bool := (decide (c.toNat < 0x20) && c ≠ '\t') || c.toNat = 0x7f

/-- The character that a short escape stands for. -/
def escapeOf? : Char → Option Char
  | '"' => some '"'
  | '\\' => some '\\'
  | 'b' => some '\x08'
  | 'f' => some '\x0c'
  | 'n' => some '\n'
  | 'r' => some '\r'
  | 't' => some '\t'
  | _ => none

namespace Lexer

/-- Adds a token and goes on between tokens. -/
def emit (l : Lexer) (token : Token) : Lexer := ⟨token :: l.tokens, .between⟩

/-- Reads a character between two tokens. -/
def startToken (l : Lexer) (c : Char) : Option Lexer :=
  if c = ' ' ∨ c = '\t' then some { l with state := .between }
  else if c = '#' then some { l with state := .comment }
  else if c = '"' then some { l with state := .basic [] }
  else if c = '\x27' then some { l with state := .verbatim [] }
  else if isMark c then some (l.emit (.mark c))
  else if isWordChar c then some { l with state := .word [c] }
  else none

/-- Reads a character. -/
def step (l : Lexer) (c : Char) : Option Lexer :=
  if isControl c then none
  else
    match l.state with
    | .between => l.startToken c
    | .word done =>
      if isWordChar c then some { l with state := .word (c :: done) }
      else (l.emit (.word (String.ofList done.reverse))).startToken c
    | .basic done =>
      if c = '"' then some (l.emit (.quoted (String.ofList done.reverse)))
      else if c = '\\' then some { l with state := .escape done }
      else some { l with state := .basic (c :: done) }
    | .escape done =>
      if c = 'u' then some { l with state := .code done 0 4 }
      else if c = 'U' then some { l with state := .code done 0 8 }
      else (escapeOf? c).map fun e => { l with state := .basic (e :: done) }
    | .code done value missing => do
      let value := value * 16 + (← Json.hexValue? c)
      if missing ≤ 1 then
        return { l with state := .basic ((← Json.charOf? value) :: done) }
      else return { l with state := .code done value (missing - 1) }
    | .verbatim done =>
      if c = '\x27' then some (l.emit (.quoted (String.ofList done.reverse)))
      else some { l with state := .verbatim (c :: done) }
    | .comment => some l

/-- The tokens of a line that has been read to its end. -/
def finish? (l : Lexer) : Option (List Token) :=
  match l.state with
  | .between => some l.tokens.reverse
  | .comment => some l.tokens.reverse
  | .word done => some (.word (String.ofList done.reverse) :: l.tokens).reverse
  | _ => none

end Lexer

/-- The tokens of a line. -/
def tokens? (line : List Char) : Option (List Token) := do
  (← line.foldlM Lexer.step ⟨[], .between⟩).finish?

end Retrace.Toml
