import Retrace.Rule.Separator

/-!
# Statements

The rules for statements and declarations. Each anchors the fixed tokens of its
construct: keywords, parentheses, braces, colons and semicolons.
-/

namespace Retrace.Rule

/-- An expression and a semicolon. -/
def expressionStatement (p : Pairing) : List Anchor := p.trailing ";"

/-- Statements in braces. -/
def block (p : Pairing) : List Anchor := p.leading "\x7b" ++ p.trailing "\x7d"

/-- A choice between statements. -/
def ifStatement (p : Pairing) (s o : IfStatement) : List Anchor :=
  p.leading "if" ++
    p.token (p.placesOf s o fun site n => site.before? n.test "(") "(" ++
    p.token (p.placesOf s o fun site n => site.between? n.test n.consequent ")") ")" ++
    (if s.alternate.isSome && o.alternate.isSome then
      p.token
        (p.placesOf s o fun site n => do site.between? n.consequent (← n.alternate) "else")
        "else"
    else [])

/-- The tokens of the head of a loop with three clauses. -/
structure ForTokens where
  opening : Option Nat
  first : Option Nat
  second : Option Nat
  closing : Option Nat

/-- Where the first of some clauses starts, those that are missing being passed
over. -/
def firstStart? (site : Site) (clauses : List (Option NodeId)) : Option Nat :=
  clauses.findSome? fun clause => clause.bind site.outerStart?

/-- Finds the tokens of the head of a loop. Each is looked for from the end of the
clause before it, or else from the token before that clause, up to the start of
the next clause that is there, or else of the body. -/
def forTokens (site : Site) (n : ForStatement) : ForTokens :=
  let body := site.outerStart? n.body
  let opening := do
    site.find? site.start (← (firstStart? site [n.init, n.test, n.update]).or body) "("
  let first := do
    let start ← (n.init.bind site.outerStop?).or (opening.map (· + 1))
    site.find? start (← (firstStart? site [n.test, n.update]).or body) ";"
  let second := do
    let start ← (n.test.bind site.outerStop?).or (first.map (· + 1))
    site.find? start (← (firstStart? site [n.update]).or body) ";"
  let closing := do
    let start ← (n.update.bind site.outerStop?).or (second.map (· + 1))
    site.rfind? start (← body) ")"
  { opening, first, second, closing }

/-- A loop with three clauses, any of which may be missing. -/
def forStatement (p : Pairing) (s o : ForStatement) : List Anchor :=
  let source := forTokens p.source s
  let output := forTokens p.output o
  p.leading "for" ++
    p.token (source.opening, output.opening) "(" ++
    p.token (source.first, output.first) ";" ++
    p.token (source.second, output.second) ";" ++
    p.token (source.closing, output.closing) ")"

/-- The last place of a token between two children. -/
def lastBetween? (site : Site) (left right : NodeId) (token : String) : Option Nat := do
  site.rfind? (← site.outerStop? left) (← site.outerStart? right) token

/-- A loop over the keys of an object. -/
def forIn (p : Pairing) (s o : ForInStatement) : List Anchor :=
  p.leading "for" ++
    p.token (p.placesOf s o fun site n => site.before? n.left "(") "(" ++
    p.token (p.placesOf s o fun site n => site.between? n.left n.right "in") "in" ++
    p.token (p.placesOf s o fun site n => lastBetween? site n.right n.body ")") ")"

/-- A loop over the items of a sequence. -/
def forOf (p : Pairing) (s o : ForOfStatement) : List Anchor :=
  p.leading "for" ++
    (if s.isAwait && o.isAwait then
      p.token (p.placesOf s o fun site n => site.before? n.left "await") "await"
    else []) ++
    p.token (p.placesOf s o fun site n => site.before? n.left "(") "(" ++
    p.token (p.placesOf s o fun site n => site.between? n.left n.right "of") "of" ++
    p.token (p.placesOf s o fun site n => lastBetween? site n.right n.body ")") ")"

/-- A loop that tests before the body. -/
def whileStatement (p : Pairing) (s o : WhileStatement) : List Anchor :=
  p.leading "while" ++
    p.token (p.placesOf s o fun site n => site.before? n.test "(") "(" ++
    p.token (p.placesOf s o fun site n => site.between? n.test n.body ")") ")"

/-- A loop that tests after the body. -/
def doWhile (p : Pairing) (s o : WhileStatement) : List Anchor :=
  p.leading "do" ++
    p.token (p.placesOf s o fun site n => site.between? n.body n.test "while") "while" ++
    p.token (p.placesOf s o fun site n => lastBetween? site n.body n.test "(") "(" ++
    p.token (p.placesOf s o fun site n => site.after? n.test ")") ")" ++
    p.trailing ";"

/-- A statement in the scope of an object. -/
def withStatement (p : Pairing) (s o : WithStatement) : List Anchor :=
  p.leading "with" ++
    p.token (p.placesOf s o fun site n => site.before? n.object "(") "(" ++
    p.token (p.placesOf s o fun site n => site.between? n.object n.body ")") ")"

/-- A statement that starts with a keyword and ends with a semicolon. -/
def keywordStatement (keyword : String) (p : Pairing) : List Anchor :=
  p.leading keyword ++ p.trailing ";"

/-- The brace that opens the cases of a `switch`. -/
def casesStart? (site : Site) (n : SwitchStatement) : Option Nat := do
  let close ← site.after? n.discriminant ")"
  let stop ←
    match n.cases.head? with
    | some first => site.outerStart? first
    | none => some site.stop
  site.find? close stop "\x7b"

/-- A choice between cases. -/
def switch (p : Pairing) (s o : SwitchStatement) : List Anchor :=
  p.leading "switch" ++
    p.token (p.placesOf s o fun site n => site.before? n.discriminant "(") "(" ++
    p.token (p.placesOf s o fun site n => site.after? n.discriminant ")") ")" ++
    p.token (p.placesOf s o casesStart?) "\x7b" ++
    p.trailing "\x7d"

/-- The colon of a case. -/
def caseColon? (site : Site) (n : SwitchCase) : Option Nat := do
  let start ←
    match n.test with
    | some test => site.outerStop? test
    | none => (site.leading? "default").map (· + byteSize "default".toList)
  let stop ←
    match n.consequent.head? with
    | some first => site.outerStart? first
    | none => some site.stop
  site.find? start stop ":"

/-- One case; a case with a test is not anchored to one without. -/
def switchCase (p : Pairing) (s o : SwitchCase) : List Anchor :=
  let colon := p.token (p.placesOf s o caseColon?) ":"
  match s.test, o.test with
  | some _, some _ => p.leading "case" ++ colon
  | none, none => p.leading "default" ++ colon
  | _, _ => []

/-- A guarded block. -/
def tryStatement (p : Pairing) (s o : TryStatement) : List Anchor :=
  p.leading "try" ++
    (if s.finalizer.isSome && o.finalizer.isSome then
      p.token
        (p.placesOf s o fun site n => do
          site.between? (n.handler.getD n.block) (← n.finalizer) "finally")
        "finally"
    else [])

/-- A handler of a guarded block. -/
def catchClause (p : Pairing) (s o : CatchClause) : List Anchor :=
  p.leading "catch" ++
    (if s.param.isSome && o.param.isSome then
      p.token (p.placesOf s o fun site n => do site.before? (← n.param) "(") "(" ++
        p.token (p.placesOf s o fun site n => do site.between? (← n.param) n.body ")") ")"
    else [])

/-- A statement with a label. -/
def labeled (p : Pairing) (s o : LabeledStatement) : List Anchor :=
  p.token (p.placesOf s o fun site n => site.between? n.label n.body ":") ":"

/-- A declaration of variables, whose keyword may be respelled. -/
def variableDeclaration (p : Pairing) (s o : VariableDeclaration) : List Anchor :=
  p.tokenOrRespelling (p.source.leading? s.keyword, p.output.leading? o.keyword)
      s.keyword o.keyword ++
    p.separators s.declarations o.declarations (p.places fun site => some site.stop) "," ++
    p.trailing ";"

/-- One variable of a declaration. -/
def variableDeclarator (p : Pairing) (s o : VariableDeclarator) : List Anchor :=
  if s.init.isSome && o.init.isSome then
    p.token (p.placesOf s o fun site n => do site.between? n.id (← n.init) "=") "="
  else []

end Retrace.Rule
