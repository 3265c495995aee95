import Retrace.Json.Value
import Retrace.Numeral.Decimal

/-!
# Tokens of a document

A document is split into tokens one character at a time. The state between two
characters says whether a string, a number or a word has been begun.

The characters of a string are kept by their codes until it ends. An escape of a
character beyond the first plane is written as two halves, which have to follow
each other. A string with a half by itself is well formed but cannot be read, and
neither can a number too large for a double. Strings with escapes are told apart,
because a number as the name of a field has to be written without any.
-/

namespace Retrace.Json

/-- A token of a document. -/
inductive Token where
  | openBrace
  | closeBrace
  | openBracket
  | closeBracket
  | colon
  | comma
  | str (value : String)
  /-- A string with escapes; nothing stands for one that cannot be read. -/
  | escapedStr (value : Option String)
  | scalar (value : Json)

/-- The value of a hexadecimal digit. -/
def hexValue? (c : Char) : Option Nat :=
  if '0' ≤ c ∧ c ≤ '9' then some (c.toNat - '0'.toNat)
  else if 'a' ≤ c ∧ c ≤ 'f' then some (c.toNat - 'a'.toNat + 10)
  else if 'A' ≤ c ∧ c ≤ 'F' then some (c.toNat - 'A'.toNat + 10)
  else none

/-- The character with a given code. -/
def charOf? (code : Nat) : Option Char :=
  if code.isValidChar then some (Char.ofNat code) else none

/-- The value of a decimal digit. -/
def digitValue (c : Char) : Nat := c.toNat - '0'.toNat

/-- The number with the given digits. -/
def decimalValue (digits : List Nat) : Nat := digits.foldl (fun n d => n * 10 + d) 0

/-- What has been begun when a character is read. The characters of an unfinished
token are kept in reverse, those of a string by their codes. -/
inductive LexState where
  | between
  | string (done : List Nat) (escaped : Bool)
  | escape (done : List Nat)
  | code (done : List Nat) (value digits : Nat)
  | number (done : List Char)
  | word (done : List Char)

/-- The tokens found so far, in reverse, and what has been begun. -/
structure Lexer where
  tokens : List Token
  state : LexState

/-- The character may stand in a number. -/
def isNumberChar (c : Char) : Bool :=
  c.isDigit || c = '-' || c = '+' || c = '.' || c = 'e' || c = 'E'

/-- Splits off the exponent of a number, with its sign. -/
def exponentOf? : List Char → Option Int
  | [] => some 0
  | mark :: rest =>
    if mark = 'e' ∨ mark = 'E' then
      let (negative, digits) :=
        match rest with
        | '-' :: digits => (true, digits)
        | '+' :: digits => (false, digits)
        | digits => (false, digits)
      if digits ≠ [] ∧ digits.all Char.isDigit then
        let power := decimalValue (digits.map digitValue)
        some (if negative then -(power : Int) else power)
      else none
    else none

/-- The value of a decimal, which is unreadable if it is too large. -/
def realOf (d : Decimal) : Json :=
  match d.toNumeral? with
  | some x => .real x
  | none => .unreadable

/-- The value of a number without a fraction or an exponent. Integers that 64 bits
hold, with a sign if there is one, stay integers; minus zero does not. -/
def integerOf (negative : Bool) (digits : List Nat) : Json :=
  let n := decimalValue digits
  if negative then
    if 0 < n ∧ n ≤ Nat.pow 2 63 then .int (-(n : Int))
    else realOf (Decimal.ofDigits true digits [] 0)
  else if n < Nat.pow 2 64 then .int n
  else realOf (Decimal.ofDigits false digits [] 0)

/-- The value that the text of a number stands for. -/
def numberOf? (text : List Char) : Option Json :=
  let (negative, text) :=
    match text with
    | '-' :: rest => (true, rest)
    | rest => (false, rest)
  let integer := text.takeWhile Char.isDigit
  let rest := text.dropWhile Char.isDigit
  if integer = [] ∨ integer.head? = some '0' ∧ integer ≠ ['0'] then none
  else
    let whole := integer.map digitValue
    match rest with
    | [] => some (integerOf negative whole)
    | '.' :: rest =>
      let fraction := rest.takeWhile Char.isDigit
      if fraction = [] then none
      else do
        let power ← exponentOf? (rest.dropWhile Char.isDigit)
        return realOf (Decimal.ofDigits negative whole (fraction.map digitValue) power)
    | rest => do
      let power ← exponentOf? rest
      return realOf (Decimal.ofDigits negative whole [] power)

/-- The value that a word stands for. -/
def wordOf? (text : String) : Option Json :=
  if text = "null" then some .null
  else if text = "true" then some (.bool true)
  else if text = "false" then some (.bool false)
  else none

/-- The character that an escape stands for. -/
def escapeOf? : Char → Option Char
  | '"' => some '"'
  | '\\' => some '\\'
  | '/' => some '/'
  | 'b' => some '\x08'
  | 'f' => some '\x0c'
  | 'n' => some '\n'
  | 'r' => some '\r'
  | 't' => some '\t'
  | _ => none

/-- The code is the first half of a character. -/
def isFirstHalf (code : Nat) : Bool := decide (0xd800 ≤ code) && decide (code < 0xdc00)

/-- The code is the second half of a character. -/
def isSecondHalf (code : Nat) : Bool := decide (0xdc00 ≤ code) && decide (code < 0xe000)

/-- The code of the character with two given halves. -/
def joinHalves (first second : Nat) : Nat := 0x10000 + (first - 0xd800) * 0x400 + (second - 0xdc00)

/-- Puts the characters with some codes, given in reverse, before others. Two halves
that follow each other are one character, and a half by itself is none. -/
def charsBefore? (chars : List Char) : List Nat → Option (List Char)
  | [] => some chars
  | [code] => (charOf? code).map (· :: chars)
  | code :: before :: rest =>
    if isSecondHalf code && isFirstHalf before then
      charsBefore? (Char.ofNat (joinHalves before code) :: chars) rest
    else
      match charOf? code with
      | some c => charsBefore? (c :: chars) (before :: rest)
      | none => none

/-- The token of a string, whose codes are given in reverse. -/
def stringToken (codes : List Nat) (escaped : Bool) : Token :=
  match charsBefore? [] codes with
  | some chars =>
    if escaped then .escapedStr (some (String.ofList chars)) else .str (String.ofList chars)
  | none => .escapedStr none

namespace Lexer

/-- Adds a token and goes on between tokens. -/
def emit (l : Lexer) (token : Token) : Lexer := ⟨token :: l.tokens, .between⟩

/-- Reads a character between two tokens. -/
def startToken (l : Lexer) (c : Char) : Option Lexer :=
  if c = ' ' ∨ c = '\t' ∨ c = '\n' ∨ c = '\r' then some { l with state := .between }
  else if c = '\x7b' then some (l.emit .openBrace)
  else if c = '\x7d' then some (l.emit .closeBrace)
  else if c = '[' then some (l.emit .openBracket)
  else if c = ']' then some (l.emit .closeBracket)
  else if c = ':' then some (l.emit .colon)
  else if c = ',' then some (l.emit .comma)
  else if c = '"' then some { l with state := .string [] false }
  else if c.isDigit ∨ c = '-' then some { l with state := .number [c] }
  else if c.isLower then some { l with state := .word [c] }
  else none

/-- Ends a number or a word. -/
def finishScalar (l : Lexer) : Option Lexer :=
  match l.state with
  | .between => some l
  | .number done => (numberOf? done.reverse).map fun value => l.emit (.scalar value)
  | .word done => (wordOf? (String.ofList done.reverse)).map fun value => l.emit (.scalar value)
  | _ => none

/-- Reads a character. -/
def step (l : Lexer) (c : Char) : Option Lexer :=
  match l.state with
  | .between => l.startToken c
  | .string done escaped =>
    if c = '"' then some (l.emit (stringToken done escaped))
    else if c = '\\' then some { l with state := .escape done }
    else if c.toNat < 0x20 then none
    else some { l with state := .string (c.toNat :: done) escaped }
  | .escape done =>
    if c = 'u' then some { l with state := .code done 0 0 }
    else (escapeOf? c).map fun e => { l with state := .string (e.toNat :: done) true }
  | .code done value digits => do
    let digit ← hexValue? c
    let value := value * 16 + digit
    if digits = 3 then some { l with state := .string (value :: done) true }
    else some { l with state := .code done value (digits + 1) }
  | .number done =>
    if isNumberChar c then some { l with state := .number (c :: done) }
    else do (← l.finishScalar).startToken c
  | .word done =>
    if c.isLower then some { l with state := .word (c :: done) }
    else do (← l.finishScalar).startToken c

end Lexer

/-- The tokens of a text. -/
def tokens? (text : List Char) : Option (List Token) := do
  let l ← text.foldlM Lexer.step ⟨[], .between⟩
  let l ← l.finishScalar
  return l.tokens.reverse

end Retrace.Json
