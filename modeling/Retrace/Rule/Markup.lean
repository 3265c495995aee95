import Retrace.Rule.Separator

/-!
# Markup

The rules for elements of markup inside expressions.
-/

namespace Retrace.Rule

/-- The end of the opening tag, after the name and the attributes. -/
def tagStop? (site : Site) (n : JsxElement) : Option Nat := do
  let stop ←
    match n.children.head? with
    | some child => site.outerStart? child
    | none => some site.stop
  site.find? (← site.outerStop? (n.attributes.getLast?.getD n.name)) stop ">"

/-- The start of the closing tag, after the children. -/
def closingTag? (site : Site) (n : JsxElement) : Option Nat := do
  let start ←
    match n.children.getLast? with
    | some child => site.outerStop? child
    | none => tagStop? site n
  site.rfind? start site.stop "</"

/-- An element. One that closes itself has only its outer delimiters, and is not
anchored further to one that does not. -/
def element (p : Pairing) (s o : JsxElement) : List Anchor :=
  p.leading "<" ++
    match s.selfClosing, o.selfClosing with
    | true, true => p.trailing "/>"
    | false, false =>
      p.token (p.placesOf s o tagStop?) ">" ++
        p.token (p.placesOf s o closingTag?) "</" ++
        p.trailing ">"
    | _, _ => []

/-- An attribute, if it has a value on both sides. -/
def markupAttribute (p : Pairing) (s o : JsxAttribute) : List Anchor :=
  if s.value.isSome && o.value.isSome then
    p.token (p.placesOf s o fun site n => do site.between? n.name (← n.value) "=") "="
  else []

/-- An expression in braces. -/
def expressionContainer (p : Pairing) : List Anchor := p.leading "\x7b" ++ p.trailing "\x7d"

end Retrace.Rule
