import Retrace.Json.Token
import Retrace.Text.Blank

/-!
# Scalars of YAML

A scalar is plain or in quotes. Plain scalars that spell null or a truth value
stand for it; all others are text, numbers included, since no setting is a
number. In double quotes a backslash starts an escape, in single quotes a quote
is written twice.
-/

namespace Retrace.Yaml

/-- The value of a plain scalar. -/
def plainValue (text : String) : Json :=
  if text ∈ ["", "~", "null", "Null", "NULL"] then .null
  else if text ∈ ["true", "True", "TRUE"] then .bool true
  else if text ∈ ["false", "False", "FALSE"] then .bool false
  else .str text

/-- The token of a plain scalar. -/
def plainToken (text : String) : Json.Token :=
  match plainValue text with
  | .str text => .str text
  | value => .scalar value

/-- The character that a short escape in double quotes stands for. -/
def escapeOf? : Char → Option Char
  | '0' => some '\x00'
  | 'a' => some '\x07'
  | 'b' => some '\x08'
  | 't' => some '\t'
  | 'n' => some '\n'
  | 'v' => some '\x0b'
  | 'f' => some '\x0c'
  | 'r' => some '\r'
  | 'e' => some '\x1b'
  | ' ' => some ' '
  | '"' => some '"'
  | '/' => some '/'
  | '\\' => some '\\'
  | _ => none

/-- The number of hexadecimal digits that follow an escape by code. -/
def codeLength? : Char → Option Nat
  | 'x' => some 2
  | 'u' => some 4
  | 'U' => some 8
  | _ => none

/-- What has been begun within a scalar in quotes. -/
inductive QuoteState where
  | double
  | escape
  | code (value missing : Nat)
  | single
  /-- A single quote that ends the scalar unless another one follows. -/
  | maybeEnd
deriving DecidableEq

/-- What a character within quotes does: it goes on, perhaps with a character
added, or it ends the scalar, itself being the last character or not. -/
inductive QuoteStep where
  | more (added : Option Char) (next : QuoteState)
  | ends
  | endedBefore

/-- Reads a character within quotes. -/
def quoteStep? (state : QuoteState) (c : Char) : Option QuoteStep :=
  match state with
  | .double =>
    if c = '"' then some .ends
    else if c = '\\' then some (.more none .escape)
    else some (.more (some c) .double)
  | .escape =>
    match codeLength? c with
    | some length => some (.more none (.code 0 length))
    | none => (escapeOf? c).map fun e => .more (some e) .double
  | .code value missing => do
    let value := value * 16 + (← Json.hexValue? c)
    if missing ≤ 1 then return .more (some (← Json.charOf? value)) .double
    else return .more none (.code value (missing - 1))
  | .single => if c = '\x27' then some (.more none .maybeEnd) else some (.more (some c) .single)
  | .maybeEnd => if c = '\x27' then some (.more (some c) .single) else some .endedBefore

/-- Reads a scalar in quotes, of which some characters are read already, in
reverse. The answer is the scalar and what follows it. -/
def quotedFrom? (state : QuoteState) (done : List Char) : List Char → Option (String × List Char)
  | [] => if state = .maybeEnd then some (String.ofList done.reverse, []) else none
  | c :: rest => do
    match ← quoteStep? state c with
    | .more added next => quotedFrom? next (added.toList ++ done) rest
    | .ends => return (String.ofList done.reverse, rest)
    | .endedBefore => return (String.ofList done.reverse, c :: rest)

/-- Reads the scalar in quotes that some characters start with. -/
def quoted? : List Char → Option (String × List Char)
  | '"' :: rest => quotedFrom? .double [] rest
  | '\x27' :: rest => quotedFrom? .single [] rest
  | _ => none

/-- The character starts a scalar in quotes. -/
def isQuote (c : Char) : Bool := c = '"' || c = '\x27'

end Retrace.Yaml
