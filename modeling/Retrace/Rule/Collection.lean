import Retrace.Rule.Separator

/-!
# Arrays, objects and imports

The rules for lists in brackets and braces and for the entries of objects and
imports.
-/

namespace Retrace.Rule

/-- An array literal or pattern. Separators next to a hole are reported. -/
def array (p : Pairing) (s o : ArrayLike) : Outcome :=
  let close := p.places (·.trailing? "]")
  { anchors :=
      p.leading "[" ++ p.sparseSeparators s.elements o.elements close "," ++ p.token close "]"
    problems := Pairing.holeProblems s.elements o.elements close }

/-- An object literal or pattern. -/
def object (p : Pairing) (s o : ObjectLike) : List Anchor :=
  let close := p.places (·.trailing? "\x7d")
  p.leading "\x7b" ++ p.separators s.properties o.properties close "," ++ p.token close "\x7d"

/-- A property of an object. A shorthand has no colon. -/
def property (p : Pairing) (s o : ObjectProperty) : List Anchor :=
  (if s.computed && o.computed then
    p.token (p.placesOf s o fun site n => site.lastBefore? n.key "[") "[" ++
      p.token (p.placesOf s o fun site n => site.between? n.key n.value "]") "]"
  else []) ++
    (if s.shorthand || o.shorthand then []
    else p.token (p.placesOf s o fun site n => site.between? n.key n.value ":") ":")

/-- The keyword in front of the name of a module. -/
def fromKeyword? (site : Site) (n : ImportDeclaration) : Option Nat := do
  let start ←
    match n.specifiers.getLast? with
    | some last => site.outerStop? last
    | none => some site.start
  site.find? start (← site.outerStart? n.source) "from"

/-- An import. -/
def importDeclaration (p : Pairing) (s o : ImportDeclaration) : List Anchor :=
  let keyword := p.placesOf s o fromKeyword?
  p.leading "import" ++
    p.token (p.placesOf s o fun site n => site.before? n.source "\x7b") "\x7b" ++
    p.separators s.specifiers o.specifiers keyword "," ++
    p.token (p.placesOf s o fun site n => site.lastBefore? n.source "\x7d") "\x7d" ++
    p.token keyword "from" ++
    p.trailing ";"

/-- One imported name, if it is renamed on both sides. -/
def importSpecifier (p : Pairing) (s o : ImportSpecifier) : List Anchor :=
  if s.imported = s.localName ∨ o.imported = o.localName then []
  else p.token (p.placesOf s o fun site n => site.between? n.imported n.localName "as") "as"

/-- An import of everything under one name. -/
def importNamespace (p : Pairing) (s o : ImportLocal) : List Anchor :=
  p.leading "*" ++ p.token (p.placesOf s o fun site n => site.before? n.localName "as") "as"

end Retrace.Rule
