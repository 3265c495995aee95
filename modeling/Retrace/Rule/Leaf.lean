import Retrace.Options
import Retrace.Rule.Pairing

/-!
# Leaves and literals

A leaf is one token. If its text is the same on both sides, it is anchored
character by character, unless that is switched off. A literal whose text has
changed is anchored in pieces: its delimiters, then its body where that is the
same.
-/

namespace Retrace.Rule

/-- The two nodes have the same text. -/
def sameText (p : Pairing) : Bool :=
  match p.source.slice?, p.output.slice? with
  | some s, some o => decide (s = o)
  | _, _ => false

/-- Anchors two nodes of the same text. -/
def identity (options : Options) (p : Pairing) : List Anchor :=
  if options.identityLeaves then
    p.run p.source.start p.output.start (byteSize (p.source.slice?.getD []))
  else []

/-- A token that is anchored as a whole or not at all. -/
def leaf (options : Options) (p : Pairing) : List Anchor :=
  if sameText p then identity options p else []

/-- The text of the node has digit separators. -/
def hasSeparators (s : Site) : Bool := (s.slice?.getD []).contains '_'

/-- Pairs the characters of a source that are no digit separators with those of
an output, in order, and anchors the pairs that agree. -/
def dropSeparators (p : Pairing) : List Anchor :=
  let digits := (p.source.text.charOffsets p.source.node.span).filter (·.2 ≠ '_')
  let others := p.output.text.charOffsets p.output.node.span
  (digits.zip others).filterMap fun ((s, c), (o, d)) => if c = d then some (.plain s o) else none

/-- A number literal, which may lose its digit separators. -/
def number (options : Options) (p : Pairing) : List Anchor :=
  if sameText p then identity options p
  else if hasSeparators p.source && !hasSeparators p.output then dropSeparators p
  else []

/-- The character is a quotation mark of a string literal. -/
def isQuote (c : Char) : Bool := c = '"' || c = '\x27'

/-- The places of the quotes around a string literal. -/
def quotes? (s : Site) : Option (Nat × Nat) :=
  let close := s.stop - 1
  if s.start < close ∧ (s.charAt? s.start).any isQuote ∧ (s.charAt? close).any isQuote then
    some (s.start, close)
  else none

/-- Anchors two delimiters around a body, and the body if it has the same length
on both sides. -/
def delimited (p : Pairing) (s o : Nat × Nat) : List Anchor :=
  p.character s.1 o.1 ++
    (if s.2 - s.1 = o.2 - o.1 then p.run (s.1 + 1) (o.1 + 1) (s.2 - s.1 - 1) else []) ++
    p.character s.2 o.2

/-- A string literal, which may change its quotes. -/
def string (options : Options) (p : Pairing) : List Anchor :=
  if sameText p then identity options p
  else
    match quotes? p.source, quotes? p.output with
    | some s, some o => delimited p s o
    | _, _ => []

/-- The place of the slash that ends the pattern of a regular expression. -/
def patternStop? (s : Site) : Option Nat := s.rfind? (s.start + 1) s.stop "/"

/-- A regular expression: the slashes, then the pattern and the flags if they are
unchanged. -/
def regExp (options : Options) (p : Pairing) (s o : RegExpLiteral) : List Anchor :=
  if sameText p then identity options p
  else
    let close := p.places patternStop?
    p.leading "/" ++ p.token close "/" ++
      match close with
      | (some sourceClose, some outputClose) =>
        (if s.pattern = o.pattern then
          p.run (p.source.start + 1) (p.output.start + 1) (byteSize s.pattern.toList)
        else []) ++
        (if s.flags = o.flags ∧ s.flags ≠ "" then
          p.run (sourceClose + 1) (outputClose + 1) (byteSize s.flags.toList)
        else [])
      | _ => []

/-- A template: the backticks, and the delimiters around each expression. -/
def template (p : Pairing) (s o : TemplateLiteral) : List Anchor :=
  p.leading "`" ++
    ((s.expressions.zip o.expressions).flatMap fun (a, b) =>
      p.token (p.source.lastBefore? a "$\x7b", p.output.lastBefore? b "$\x7b") "$\x7b" ++
        p.token (p.source.after? a "\x7d", p.output.after? b "\x7d") "\x7d") ++
    p.trailing "`"

end Retrace.Rule
