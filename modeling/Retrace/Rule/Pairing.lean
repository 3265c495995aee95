import Retrace.Anchor
import Retrace.Rule.Site

/-!
# Pairings

A pairing is an output node with the source node it came from. Rules look for
the tokens of both nodes and hand the two places to one of the operations here,
which anchor them only if the text bears it out: a token is anchored where it
stands on both sides, a run where both sides have the same characters. Nothing
is anchored if one of the places is not known.
-/

namespace Retrace

/-- The place of one token on the two sides, as far as it is known. -/
abbrev Places := Option Nat × Option Nat

/-- A source node and the output node that came from it. -/
structure Pairing where
  source : Site
  output : Site

/-- What a rule has to say besides its anchors. -/
inductive Problem where
  | unsupported
  | ambiguous (reason : String)
deriving DecidableEq

/-- What a rule gives for a pairing. -/
structure Outcome where
  anchors : List Anchor
  problems : List Problem
deriving DecidableEq

/-- Anchors and nothing else to report. -/
def Outcome.ofAnchors (anchors : List Anchor) : Outcome := ⟨anchors, []⟩

/-- Plain anchors for a piece of text that stands at two places. -/
def anchorEach (source output : Nat) (piece : List Char) : List Anchor :=
  (charOffsetsFrom 0 piece).map fun (i, _) => .plain (source + i) (output + i)

/-- Substitutions that respell one token as another, character by character. The
characters by which the source token is longer lead to the last character of the
output token, `last`, and replace nothing there. -/
def respell (source output : Nat) (last : Option Nat) :
    List (Nat × Char) → List (Nat × Char) → List Anchor
  | (i, c) :: rest, (j, d) :: others =>
    .substitute (source + i) (output + j) (some c) (some d) ::
      respell source output (some j) rest others
  | (i, c) :: rest, [] =>
    match last with
    | some j =>
      .substitute (source + i) (output + j) (some c) none :: respell source output last rest []
    | none => []
  | [], _ => []

namespace Pairing

/-- Looks for something on both sides. -/
def places (p : Pairing) (find : Site → Option Nat) : Places := (find p.source, find p.output)

/-- Looks for something on both sides, given the payloads of the two nodes. -/
def placesOf {α : Type} (p : Pairing) (s o : α) (find : Site → α → Option Nat) : Places :=
  (find p.source s, find p.output o)

/-- Anchors a token that stands at the two places. -/
def token (p : Pairing) (places : Places) (token : String) : List Anchor :=
  match places with
  | (some s, some o) =>
    if p.source.text.startsWithAt s token && p.output.text.startsWithAt o token then
      anchorEach s o token.toList
    else []
  | _ => []

/-- Anchors a token that may be spelled differently on the two sides. -/
def tokenOrRespelling (p : Pairing) (places : Places) (sourceToken outputToken : String) :
    List Anchor :=
  if sourceToken = outputToken then p.token places sourceToken
  else
    match places with
    | (some s, some o) =>
      if p.source.text.startsWithAt s sourceToken && p.output.text.startsWithAt o outputToken then
        respell s o none (charOffsetsFrom 0 sourceToken.toList)
          (charOffsetsFrom 0 outputToken.toList)
      else []
    | _ => []

/-- Anchors two characters whatever they are. -/
def character (p : Pairing) (s o : Nat) : List Anchor :=
  let sourceChar := p.source.charAt? s
  let outputChar := p.output.charAt? o
  if sourceChar = none ∧ outputChar = none then []
  else if sourceChar = outputChar then [.plain s o]
  else [.substitute s o sourceChar outputChar]

/-- Anchors `length` bytes that are the same on both sides. -/
def run (p : Pairing) (s o length : Nat) : List Anchor :=
  match p.source.text.slice? ⟨s, s + length, Nat.le_add_right s length⟩,
    p.output.text.slice? ⟨o, o + length, Nat.le_add_right o length⟩ with
  | some piece, some other => if piece = other then anchorEach s o piece else []
  | _, _ => []

/-- Anchors a token that both nodes start with. -/
def leading (p : Pairing) (token : String) : List Anchor :=
  p.token (p.places (·.leading? token)) token

/-- Anchors a token that both nodes end with. -/
def trailing (p : Pairing) (token : String) : List Anchor :=
  p.token (p.places (·.trailing? token)) token

end Pairing

end Retrace
