import Retrace.Json.Reader
import Retrace.Yaml.Scalar

/-!
# Flow values of YAML

A value in brackets or braces is split into the tokens of a document. A colon
divides a key from its value if a blank or a mark follows it, or if the key is in
quotes; elsewhere it is part of a plain scalar. A comma may stand before a
closing bracket or brace.
-/

namespace Retrace.Yaml

/-- What has been begun when a character is read. -/
inductive FlowState where
  | between
  | plain (done : List Char)
  /-- A plain scalar and a colon that may or may not belong to it. -/
  | colon (done : List Char)
  | quoted (done : List Char) (state : QuoteState)

/-- The tokens found so far, in reverse, and what has been begun. -/
structure FlowLexer where
  tokens : List Json.Token
  state : FlowState

/-- The token that a mark is. -/
def markToken? (c : Char) : Option Json.Token :=
  if c = '\x7b' then some .openBrace
  else if c = '\x7d' then some .closeBrace
  else if c = '[' then some .openBracket
  else if c = ']' then some .closeBracket
  else if c = ',' then some .comma
  else none

/-- The character divides scalars. -/
def isFlowBlank (c : Char) : Bool := c = ' ' || c = '\t' || c = '\n'

namespace FlowLexer

/-- Adds a token and goes on between tokens. -/
def emit (l : FlowLexer) (token : Json.Token) : FlowLexer := ⟨token :: l.tokens, .between⟩

/-- Adds a plain scalar. -/
def emitPlain (l : FlowLexer) (done : List Char) : FlowLexer :=
  l.emit (plainToken (String.ofList (trimEnd done.reverse)))

/-- Adds a scalar in quotes. -/
def emitQuoted (l : FlowLexer) (done : List Char) : FlowLexer :=
  l.emit (.str (String.ofList done.reverse))

/-- Reads a character between two tokens. -/
def startToken (l : FlowLexer) (c : Char) : FlowLexer :=
  if isFlowBlank c then { l with state := .between }
  else if c = ':' then l.emit .colon
  else if c = '"' then { l with state := .quoted [] .double }
  else if c = '\x27' then { l with state := .quoted [] .single }
  else
    match markToken? c with
    | some token => l.emit token
    | none => { l with state := .plain [c] }

/-- Reads a character. -/
def step (l : FlowLexer) (c : Char) : Option FlowLexer :=
  match l.state with
  | .between => some (l.startToken c)
  | .plain done =>
    if c = ':' then some { l with state := .colon done }
    else if (markToken? c).isSome then some ((l.emitPlain done).startToken c)
    else some { l with state := .plain (c :: done) }
  | .colon done =>
    if isFlowBlank c || (markToken? c).isSome then
      some (((l.emitPlain done).emit .colon).startToken c)
    else if c = ':' then some { l with state := .colon (':' :: done) }
    else some { l with state := .plain (c :: ':' :: done) }
  | .quoted done state => do
    match ← quoteStep? state c with
    | .more added next => return { l with state := .quoted (added.toList ++ done) next }
    | .ends => return l.emitQuoted done
    | .endedBefore => return (l.emitQuoted done).startToken c

/-- The tokens of a text that has been read to its end. -/
def finish? (l : FlowLexer) : Option (List Json.Token) :=
  match l.state with
  | .between => some l.tokens.reverse
  | .plain done => some (l.emitPlain done).tokens.reverse
  | .colon done => some ((l.emitPlain done).emit .colon).tokens.reverse
  | .quoted done .maybeEnd => some (l.emitQuoted done).tokens.reverse
  | .quoted .. => none

end FlowLexer

/-- The tokens without the commas that stand before a closing bracket or brace. -/
def dropLastCommas : List Json.Token → List Json.Token
  | .comma :: .closeBracket :: rest => .closeBracket :: dropLastCommas rest
  | .comma :: .closeBrace :: rest => .closeBrace :: dropLastCommas rest
  | token :: rest => token :: dropLastCommas rest
  | [] => []

/-- Reads a value in brackets or braces. -/
def flowValue? (text : List Char) : Option Json := do
  let l ← text.foldlM FlowLexer.step ⟨[], .between⟩
  Json.ofTokens? (dropLastCommas (← l.finish?))

end Retrace.Yaml
