import Retrace.Proofs.Checked.Pairing

/-!
# Checked rules of statements

The rules for statements and declarations, over checked look-ups. Most of them are
put together from look-ups and tokens that are safe whatever they are asked for, so
they are safe without further ado. A few go on from the place right behind a token
that they have found, the parenthesis or a semicolon in the head of a loop and the
keyword of a case: that place is still in the text (`Site.Ahead`).
-/

namespace Retrace

/-! ## Places behind a token -/

/-- If a place is known, then `n` more bytes of the text follow it. -/
def Site.Ahead (s : Site) (o : Option Nat) (n : Nat) : Prop :=
  ∀ a, o = some a → a + n ≤ s.text.size

namespace Site

theorem ahead_find? (s : Site) (start stop : Nat) (token : String) :
    s.Ahead (s.find? start stop token) (byteSize token.toList) := by
  intro a ha
  have hBounds := bounds_of_find? ha
  omega

theorem ahead_rfind? (s : Site) (start stop : Nat) (token : String) :
    s.Ahead (s.rfind? start stop token) (byteSize token.toList) := by
  intro a ha
  have hBounds := bounds_of_rfind? ha
  omega

theorem ahead_leading? (s : Site) (token : String) :
    s.Ahead (s.leading? token) (byteSize token.toList) := by
  intro a ha
  unfold leading? at ha
  split_ifs at ha with hStarts
  cases ha
  exact (Text.startsWithAt_iff.mp hStarts).add_size_le

theorem Ahead.bind {s : Site} {α : Type} {f : α → Option Nat} {n : Nat}
    (h : ∀ x, s.Ahead (f x) n) (o : Option α) : s.Ahead (o.bind f) n := by
  intro a ha
  obtain ⟨x, -, hx⟩ := Option.bind_eq_some_iff.mp ha
  exact h x a hx

end Site

namespace Checked

open Lookup

theorem plus_ahead {s : Site} (h : s.Fits) {o : Option Nat} {n : Nat} (hAhead : s.Ahead o n) :
    plus (found o) n = found (o.map (· + n)) := by
  refine plus_found ?_
  intro a ha
  have hEnd := hAhead a ha
  have hSize := h.size
  omega

/-! ## Statements -/

/-- An expression and a semicolon. -/
def expressionStatement (p : Pairing) : Checked (List Anchor) := trail p ";"

/-- Statements in braces. -/
def block (p : Pairing) : Checked (List Anchor) := lead p "\x7b" ++ trail p "\x7d"

/-- A choice between statements. -/
def ifStatement (p : Pairing) (s o : IfStatement) : Checked (List Anchor) :=
  lead p "if" ++
    tokenOf p s o (fun site n => before site n.test "(") "(" ++
    tokenOf p s o (fun site n => between site n.test n.consequent ")") ")" ++
    (if s.alternate.isSome && o.alternate.isSome then
      tokenOf p s o (fun site n => do between site n.consequent (← found n.alternate) "else")
        "else"
    else return [])

/-- A loop over the keys of an object. -/
def forIn (p : Pairing) (s o : ForInStatement) : Checked (List Anchor) :=
  lead p "for" ++
    tokenOf p s o (fun site n => before site n.left "(") "(" ++
    tokenOf p s o (fun site n => between site n.left n.right "in") "in" ++
    tokenOf p s o (fun site n => lastBetween site n.right n.body ")") ")"

/-- A loop over the items of a sequence. -/
def forOf (p : Pairing) (s o : ForOfStatement) : Checked (List Anchor) :=
  lead p "for" ++
    (if s.isAwait && o.isAwait then
      tokenOf p s o (fun site n => before site n.left "await") "await"
    else return []) ++
    tokenOf p s o (fun site n => before site n.left "(") "(" ++
    tokenOf p s o (fun site n => between site n.left n.right "of") "of" ++
    tokenOf p s o (fun site n => lastBetween site n.right n.body ")") ")"

/-- A loop that tests before the body. -/
def whileStatement (p : Pairing) (s o : WhileStatement) : Checked (List Anchor) :=
  lead p "while" ++
    tokenOf p s o (fun site n => before site n.test "(") "(" ++
    tokenOf p s o (fun site n => between site n.test n.body ")") ")"

/-- A loop that tests after the body. -/
def doWhile (p : Pairing) (s o : WhileStatement) : Checked (List Anchor) :=
  lead p "do" ++
    tokenOf p s o (fun site n => between site n.body n.test "while") "while" ++
    tokenOf p s o (fun site n => lastBetween site n.body n.test "(") "(" ++
    tokenOf p s o (fun site n => after site n.test ")") ")" ++
    trail p ";"

/-- A statement in the scope of an object. -/
def withStatement (p : Pairing) (s o : WithStatement) : Checked (List Anchor) :=
  lead p "with" ++
    tokenOf p s o (fun site n => before site n.object "(") "(" ++
    tokenOf p s o (fun site n => between site n.object n.body ")") ")"

/-- A statement that starts with a keyword and ends with a semicolon. -/
def keywordStatement (keyword : String) (p : Pairing) : Checked (List Anchor) :=
  lead p keyword ++ trail p ";"

/-- A guarded block. -/
def tryStatement (p : Pairing) (s o : TryStatement) : Checked (List Anchor) :=
  lead p "try" ++
    (if s.finalizer.isSome && o.finalizer.isSome then
      tokenOf p s o
        (fun site n => do between site (n.handler.getD n.block) (← found n.finalizer) "finally")
        "finally"
    else return [])

/-- A handler of a guarded block. -/
def catchClause (p : Pairing) (s o : CatchClause) : Checked (List Anchor) :=
  lead p "catch" ++
    (if s.param.isSome && o.param.isSome then
      tokenOf p s o (fun site n => do before site (← found n.param) "(") "(" ++
        tokenOf p s o (fun site n => do between site (← found n.param) n.body ")") ")"
    else return [])

/-- A statement with a label. -/
def labeled (p : Pairing) (s o : LabeledStatement) : Checked (List Anchor) :=
  tokenOf p s o (fun site n => between site n.label n.body ":") ":"

/-- A declaration of variables, whose keyword may be respelled. -/
def variableDeclaration (p : Pairing) (s o : VariableDeclaration) : Checked (List Anchor) :=
  tokenOrRespelling p (leading p.source s.keyword) (leading p.output o.keyword)
      s.keyword o.keyword ++
    separators p s.declarations o.declarations (found (some p.source.stop))
      (found (some p.output.stop)) "," ++
    trail p ";"

/-- One variable of a declaration. -/
def variableDeclarator (p : Pairing) (s o : VariableDeclarator) : Checked (List Anchor) :=
  if s.init.isSome && o.init.isSome then
    tokenOf p s o (fun site n => do between site n.id (← found n.init) "=") "="
  else return []

section

variable {p : Pairing} (h : p.Fits)
include h

@[simp]
theorem expressionStatement_eq : expressionStatement p = .ok (Rule.expressionStatement p) := by
  simp [expressionStatement, Rule.expressionStatement, h]

@[simp]
theorem block_eq : block p = .ok (Rule.block p) := by
  simp [block, Rule.block, h]

@[simp]
theorem ifStatement_eq (s o : IfStatement) :
    ifStatement p s o = .ok (Rule.ifStatement p s o) := by
  simp [ifStatement, Rule.ifStatement, tokenOf, Pairing.placesOf, h]

@[simp]
theorem forIn_eq (s o : ForInStatement) : Checked.forIn p s o = .ok (Rule.forIn p s o) := by
  simp [Checked.forIn, Rule.forIn, tokenOf, Pairing.placesOf, h]

@[simp]
theorem forOf_eq (s o : ForOfStatement) : forOf p s o = .ok (Rule.forOf p s o) := by
  simp [forOf, Rule.forOf, tokenOf, Pairing.placesOf, h]

@[simp]
theorem whileStatement_eq (s o : WhileStatement) :
    whileStatement p s o = .ok (Rule.whileStatement p s o) := by
  simp [whileStatement, Rule.whileStatement, tokenOf, Pairing.placesOf, h]

@[simp]
theorem doWhile_eq (s o : WhileStatement) : doWhile p s o = .ok (Rule.doWhile p s o) := by
  simp [doWhile, Rule.doWhile, tokenOf, Pairing.placesOf, h]

@[simp]
theorem withStatement_eq (s o : WithStatement) :
    withStatement p s o = .ok (Rule.withStatement p s o) := by
  simp [withStatement, Rule.withStatement, tokenOf, Pairing.placesOf, h]

@[simp]
theorem keywordStatement_eq (keyword : String) :
    keywordStatement keyword p = .ok (Rule.keywordStatement keyword p) := by
  simp [keywordStatement, Rule.keywordStatement, h]

@[simp]
theorem tryStatement_eq (s o : TryStatement) :
    tryStatement p s o = .ok (Rule.tryStatement p s o) := by
  simp [tryStatement, Rule.tryStatement, tokenOf, Pairing.placesOf, h]

@[simp]
theorem catchClause_eq (s o : CatchClause) :
    catchClause p s o = .ok (Rule.catchClause p s o) := by
  simp [catchClause, Rule.catchClause, tokenOf, Pairing.placesOf, h]

@[simp]
theorem labeled_eq (s o : LabeledStatement) : labeled p s o = .ok (Rule.labeled p s o) := by
  simp [labeled, Rule.labeled, tokenOf, Pairing.placesOf, h]

@[simp]
theorem variableDeclaration_eq (s o : VariableDeclaration) :
    variableDeclaration p s o = .ok (Rule.variableDeclaration p s o) := by
  simp [variableDeclaration, Rule.variableDeclaration, Pairing.places, h]

@[simp]
theorem variableDeclarator_eq (s o : VariableDeclarator) :
    variableDeclarator p s o = .ok (Rule.variableDeclarator p s o) := by
  simp [variableDeclarator, Rule.variableDeclarator, tokenOf, Pairing.placesOf, h]

end

/-! ## Loops with three clauses -/

/-- Where the first of some clauses starts, those that are missing being passed
over. -/
def firstStart (site : Site) : List (Option NodeId) → Lookup Nat
  | [] => found none
  | clause :: rest => either (do outerStart site (← found clause)) (firstStart site rest)

/-- Finds the tokens of the head of a loop. -/
def forTokens (site : Site) (n : ForStatement) : Checked Rule.ForTokens := do
  let body := outerStart site n.body
  let opening ← OptionT.run do
    find site site.start (← either (firstStart site [n.init, n.test, n.update]) body) "("
  let first ← OptionT.run do
    let start ← either (do outerStop site (← found n.init)) (plus (found opening) 1)
    find site start (← either (firstStart site [n.test, n.update]) body) ";"
  let second ← OptionT.run do
    let start ← either (do outerStop site (← found n.test)) (plus (found first) 1)
    find site start (← either (firstStart site [n.update]) body) ";"
  let closing ← OptionT.run do
    let start ← either (do outerStop site (← found n.update)) (plus (found second) 1)
    rfind site start (← body) ")"
  return { opening, first, second, closing }

/-- A loop with three clauses, any of which may be missing. -/
def forStatement (p : Pairing) (s o : ForStatement) : Checked (List Anchor) := do
  let source ← forTokens p.source s
  let output ← forTokens p.output o
  lead p "for" ++
    Checked.token p (found source.opening) (found output.opening) "(" ++
    Checked.token p (found source.first) (found output.first) ";" ++
    Checked.token p (found source.second) (found output.second) ";" ++
    Checked.token p (found source.closing) (found output.closing) ")"

@[simp]
theorem firstStart_eq {site : Site} (h : site.Fits) (clauses : List (Option NodeId)) :
    firstStart site clauses = found (Rule.firstStart? site clauses) := by
  induction clauses with
  | nil => rfl
  | cons clause rest ih =>
    simp only [firstStart, outerStart_eq h, found_bind_found, ih, either_found]
    simp only [Rule.firstStart?, List.findSome?_cons]
    cases clause.bind site.outerStart? <;> rfl

@[simp]
theorem forTokens_eq {site : Site} (h : site.Fits) (n : ForStatement) :
    forTokens site n = .ok (Rule.forTokens site n) := by
  have hOpening : site.Ahead (Rule.forTokens site n).opening 1 :=
    .bind (fun _ => site.ahead_find? _ _ "(") _
  have hFirst : site.Ahead (Rule.forTokens site n).first 1 :=
    .bind (fun _ => .bind (fun _ => site.ahead_find? _ _ ";") _) _
  have hSecond : site.Ahead (Rule.forTokens site n).second 1 :=
    .bind (fun _ => .bind (fun _ => site.ahead_find? _ _ ";") _) _
  simp only [Rule.forTokens, Option.bind_eq_bind] at hOpening hFirst hSecond
  simp only [forTokens, Rule.forTokens, outerStart_eq h, outerStop_eq h, firstStart_eq h,
    find_eq h, rfind_eq h, either_found, found_bind_found, run_found, ok_bind, pure_eq_ok,
    Option.bind_eq_bind, plus_ahead h hOpening, plus_ahead h hFirst, plus_ahead h hSecond]

@[simp]
theorem forStatement_eq {p : Pairing} (h : p.Fits) (s o : ForStatement) :
    forStatement p s o = .ok (Rule.forStatement p s o) := by
  simp [forStatement, Rule.forStatement, h]

/-! ## Choices between cases -/

/-- The brace that opens the cases of a `switch`. -/
def casesStart (site : Site) (n : SwitchStatement) : Lookup Nat := do
  let close ← after site n.discriminant ")"
  let stop ←
    match n.cases.head? with
    | some first => outerStart site first
    | none => found (some site.stop)
  find site close stop "\x7b"

/-- A choice between cases. -/
def switch (p : Pairing) (s o : SwitchStatement) : Checked (List Anchor) :=
  lead p "switch" ++
    tokenOf p s o (fun site n => before site n.discriminant "(") "(" ++
    tokenOf p s o (fun site n => after site n.discriminant ")") ")" ++
    tokenOf p s o casesStart "\x7b" ++
    trail p "\x7d"

/-- The colon of a case. -/
def caseColon (site : Site) (n : SwitchCase) : Lookup Nat := do
  let start ←
    match n.test with
    | some test => outerStop site test
    | none => plus (leading site "default") (byteSize "default".toList)
  let stop ←
    match n.consequent.head? with
    | some first => outerStart site first
    | none => found (some site.stop)
  find site start stop ":"

/-- One case; a case with a test is not anchored to one without. -/
def switchCase (p : Pairing) (s o : SwitchCase) : Checked (List Anchor) :=
  let colon := tokenOf p s o caseColon ":"
  match s.test, o.test with
  | some _, some _ => lead p "case" ++ colon
  | none, none => lead p "default" ++ colon
  | _, _ => return []

@[simp]
theorem casesStart_eq {site : Site} (h : site.Fits) (n : SwitchStatement) :
    casesStart site n = found (Rule.casesStart? site n) := by
  unfold casesStart Rule.casesStart?
  cases n.cases.head? <;> simp [h]

@[simp]
theorem switch_eq {p : Pairing} (h : p.Fits) (s o : SwitchStatement) :
    switch p s o = .ok (Rule.switch p s o) := by
  simp [switch, Rule.switch, tokenOf, Pairing.placesOf, h]

@[simp]
theorem caseColon_eq {site : Site} (h : site.Fits) (n : SwitchCase) :
    caseColon site n = found (Rule.caseColon? site n) := by
  have hDefault := plus_ahead h (site.ahead_leading? "default")
  unfold caseColon Rule.caseColon?
  rw [leading_eq, hDefault]
  cases n.test <;> cases n.consequent.head? <;> simp [h]

@[simp]
theorem switchCase_eq {p : Pairing} (h : p.Fits) (s o : SwitchCase) :
    switchCase p s o = .ok (Rule.switchCase p s o) := by
  unfold switchCase Rule.switchCase
  cases s.test <;> cases o.test <;> simp [tokenOf, Pairing.placesOf, h]

end Checked

end Retrace
