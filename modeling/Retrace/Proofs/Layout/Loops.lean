import Retrace.Proofs.Layout.Basic

/-!
# Heads of loops

A loop with three clauses may lack any of them, on either side, and its tokens are still
told apart. Each of them is looked for from the end of the clause before it, or from the token
before that if the clause is missing; in both cases there is spacing up to the token
(`Site.Clause.exists_start`). The window ends at the next clause that is there or at the body,
and that lies behind the token (`Site.Clause.endsFrom`). So the eight choices of clauses need
no case of their own, and the two sides need not agree in theirs.
-/

namespace Retrace

/-- Where the tokens of the head of a loop stand: the parentheses and the two semicolons
between them. -/
structure HeadTokens where
  opening : Nat
  first : Nat
  second : Nat
  closing : Nat

namespace Site

/-- What stands between two tokens of the head of a loop: a clause with spacing around it, or
nothing but spacing if the clause is missing. -/
inductive Clause (s : Site) (start stop : Nat) : Option NodeId → Prop where
  | missing (hGap : s.text.Spaced start stop) : Clause s start stop none
  | present {child : NodeId} {span : Span} (hChild : s.Bare child span)
      (hBefore : s.text.Spaced start span.start) (hAfter : s.text.Spaced span.stop stop) :
      Clause s start stop (some child)

/-- The node is a loop with three clauses, laid out as usual up to its body. -/
structure LoopHead (s : Site) (n : ForStatement) (t : HeadTokens) : Prop where
  node : s.node.construct = ⟨.forStatement, n⟩
  keyword : s.text.startsWithAt s.start "for" = true
  gap : s.text.Spaced (s.start + 3) t.opening
  opening : s.text.startsWithAt t.opening "(" = true
  init : s.Clause (t.opening + 1) t.first n.init
  first : s.text.startsWithAt t.first ";" = true
  test : s.Clause (t.first + 1) t.second n.test
  second : s.text.startsWithAt t.second ";" = true
  update : s.Clause (t.second + 1) t.closing n.update
  closing : s.text.startsWithAt t.closing ")" = true
  body : ∃ span, s.Bare n.body span ∧ s.text.Spaced (t.closing + 1) span.start

/-- A window that ends at the first clause of a list, or at the body if they are all missing,
reaches beyond an offset. -/
def EndsFrom (s : Site) (clauses : List (Option NodeId)) (body : NodeId) (offset : Nat) : Prop :=
  ∃ stop, (Rule.firstStart? s clauses).or (s.outerStart? body) = some stop ∧ offset ≤ stop ∧
    s.text.StandsAt stop []

variable {s : Site} {start stop : Nat} {clause : Option NodeId} {rest : List (Option NodeId)}
  {body : NodeId}

/-- The search behind a clause starts with spacing, whether the clause is there or not. -/
theorem Clause.exists_start (h : s.Clause start stop clause) :
    ∃ offset, (clause.bind s.outerStop?).or (some start) = some offset ∧
      s.text.Spaced offset stop := by
  cases h with
  | missing hGap => exact ⟨start, rfl, hGap⟩
  | present hChild hBefore hAfter =>
    exact ⟨_, by rw [Option.bind_some, hChild.outerStop?, Option.some_or], hAfter⟩

theorem Clause.endsFrom (h : s.Clause start stop clause)
    (hRest : s.EndsFrom rest body (stop + 1)) : s.EndsFrom (clause :: rest) body start := by
  cases h with
  | missing hGap =>
    obtain ⟨next, hNext, hOrder, hEnd⟩ := hRest
    have hLe := hGap.le
    exact ⟨next, by simpa [Rule.firstStart?] using hNext, by omega, hEnd⟩
  | present hChild hBefore hAfter =>
    exact ⟨_, by simp [Rule.firstStart?, hChild.outerStart?], hBefore.le, hBefore.ends.2⟩

/-- The semicolon behind a clause is found where it stands. -/
theorem Clause.find?_semicolon (h : s.Clause start stop clause)
    (hToken : s.text.startsWithAt stop ";" = true) (hRest : s.EndsFrom rest body (stop + 1)) :
    (((clause.bind s.outerStop?).or (some start)).bind fun first =>
      ((Rule.firstStart? s rest).or (s.outerStart? body)).bind fun last =>
        s.find? first last ";") = some stop := by
  obtain ⟨offset, hStart, hGap⟩ := h.exists_start
  obtain ⟨last, hLast, hOrder, hEnd⟩ := hRest
  rw [hStart, hLast]
  exact Text.findBetween?_of_spacing hGap hToken rfl (by decide) hEnd hOrder

namespace LoopHead

variable {n : ForStatement} {t : HeadTokens}

theorem find?_opening (h : s.LoopHead n t) (hRest : s.EndsFrom rest body (t.opening + 1)) :
    (((Rule.firstStart? s rest).or (s.outerStart? body)).bind fun last =>
      s.find? s.start last "(") = some t.opening := by
  obtain ⟨last, hLast, hOrder, hEnd⟩ := hRest
  obtain ⟨gap, hGap, hPlace, hSpacing⟩ := Text.spaced_iff.mp h.gap
  -- The window starts with the node, so it holds the keyword as well as the gap.
  have hFront := (Text.startsWithAt_iff.mp h.keyword).append hGap
  have hSize : byteSize ("for".toList ++ gap) = 3 + byteSize gap := byteSize_append _ _
  have hFree : '(' ∉ "for".toList ++ gap := by
    intro hMem
    rcases List.mem_append.mp hMem with hKeyword | hBlank
    · revert hKeyword
      decide
    · exact absurd (hSpacing _ hBlank) (by decide)
  rw [hLast]
  exact Text.findBetween?_of_front hFront (by omega) h.opening rfl hFree hEnd hOrder

theorem rfind?_closing {span : Span} (h : s.LoopHead n t) (hBody : s.Bare n.body span)
    (hGap : s.text.Spaced (t.closing + 1) span.start) :
    (((n.update.bind s.outerStop?).or (some (t.second + 1))).bind fun first =>
      (s.outerStart? n.body).bind fun last => s.rfind? first last ")") = some t.closing := by
  obtain ⟨offset, hStart, hSpaced⟩ := h.update.exists_start
  rw [hStart, hBody.outerStart?]
  exact Text.rfindBetween?_of_spacing h.closing rfl (by decide) List.not_mem_nil hGap
    hSpaced.ends.1 hSpaced.le

/-- The tokens of a loop that is laid out as usual are found where they stand. -/
theorem forTokens_eq (h : s.LoopHead n t) :
    Rule.forTokens s n = ⟨some t.opening, some t.first, some t.second, some t.closing⟩ := by
  obtain ⟨span, hBody, hGap⟩ := h.body
  have hEnd : s.EndsFrom [] n.body (t.closing + 1) :=
    ⟨span.start, hBody.outerStart?, hGap.le, hGap.ends.2⟩
  have hUpdate := h.update.endsFrom hEnd
  have hTest := h.test.endsFrom hUpdate
  have hInit := h.init.endsFrom hTest
  simp only [Rule.forTokens, Option.bind_eq_bind, h.find?_opening hInit, Option.map_some,
    h.init.find?_semicolon h.first hTest, h.test.find?_semicolon h.second hUpdate,
    h.rfind?_closing hBody hGap]

end LoopHead

end Site

namespace Pairing

/-- **The head of a loop is anchored whatever clauses it has.** For two loops that are laid out
as usual, with any of their clauses missing on either side, the letters of the keyword, the
opening parenthesis, the two semicolons and the closing parenthesis are each joined to the same
token of the other side, and nothing else is anchored or reported. -/
theorem align_loopHead {p : Pairing} {s o : ForStatement} {a b : HeadTokens}
    (hSource : p.source.LoopHead s a) (hOutput : p.output.LoopHead o b) (options : Options) :
    p.align options =
      ⟨[.plain p.source.start p.output.start,
        .plain (p.source.start + 1) (p.output.start + 1),
        .plain (p.source.start + 2) (p.output.start + 2),
        .plain a.opening b.opening, .plain a.first b.first, .plain a.second b.second,
        .plain a.closing b.closing], []⟩ := by
  have hKeyword := leading_of_startsWithAt hSource.keyword hOutput.keyword
  have hOpening := token_of_startsWithAt hSource.opening hOutput.opening
  have hFirst := token_of_startsWithAt hSource.first hOutput.first
  have hSecond := token_of_startsWithAt hSource.second hOutput.second
  have hClosing := token_of_startsWithAt hSource.closing hOutput.closing
  rw [align_eq_sameKind hSource.node hOutput.node (by decide)]
  simp only [Rule.sameKind, Rule.forStatement, hSource.forTokens_eq, hOutput.forTokens_eq, hKeyword,
    hOpening, hFirst, hSecond, hClosing]
  rfl

/-- The loop `for (;")(";i++) ;` without an initial clause becomes `for(x=";" ; ; )f(")")`,
which has no other clause. -/
def rewrittenLoop : Pairing where
  source :=
    let node : Node := ⟨.upTo 17, false, ⟨.forStatement, ⟨none, some ⟨1⟩, some ⟨2⟩, ⟨4⟩⟩⟩⟩
    ⟨.ofString "for (;\")(\";i++) ;",
      ⟨⟨0⟩, #[node, .bare 6 4 ⟨.stringLiteral, ⟨")("⟩⟩,
        .bare 11 3 ⟨.updateExpression, ⟨"++", ⟨3⟩, false⟩⟩,
        .bare 11 1 ⟨.identifier, ⟨"i"⟩⟩, .bare 16 1 ⟨.emptyStatement, ()⟩]⟩,
      node⟩
  output :=
    let node : Node := ⟨.upTo 22, false, ⟨.forStatement, ⟨some ⟨1⟩, none, none, ⟨4⟩⟩⟩⟩
    ⟨.ofString "for(x=\";\" ; ;\u00a0)f(\")\")",
      ⟨⟨0⟩, #[node, .bare 4 5 ⟨.assignmentExpression, ⟨"=", ⟨2⟩, ⟨3⟩⟩⟩,
        .bare 4 1 ⟨.identifier, ⟨"x"⟩⟩, .bare 6 3 ⟨.stringLiteral, ⟨";"⟩⟩,
        .bare 16 6 ⟨.expressionStatement, ⟨⟨5⟩⟩⟩, .bare 16 6 ⟨.callExpression, ⟨⟨6⟩, [⟨7⟩], false⟩⟩,
        .bare 16 1 ⟨.identifier, ⟨"f"⟩⟩, .bare 18 3 ⟨.stringLiteral, ⟨")"⟩⟩]⟩,
      node⟩

theorem align_rewrittenLoop :
    rewrittenLoop.align .default =
      ⟨[.plain 0 0, .plain 1 1, .plain 2 2, .plain 4 3, .plain 5 10, .plain 10 12,
        .plain 14 15], []⟩ := by
  have hSource : rewrittenLoop.source.LoopHead ⟨none, some ⟨1⟩, some ⟨2⟩, ⟨4⟩⟩ ⟨4, 5, 10, 14⟩ :=
    ⟨rfl, by decide, by decide, by decide, .missing (by decide), by decide,
      .present ⟨_, rfl, rfl, rfl⟩ (by decide) (by decide), by decide,
      .present ⟨_, rfl, rfl, rfl⟩ (by decide) (by decide), by decide,
      ⟨_, ⟨_, rfl, rfl, rfl⟩, by decide⟩⟩
  have hOutput : rewrittenLoop.output.LoopHead ⟨some ⟨1⟩, none, none, ⟨4⟩⟩ ⟨3, 10, 12, 15⟩ :=
    ⟨rfl, by decide, by decide, by decide,
      .present ⟨_, rfl, rfl, rfl⟩ (by decide) (by decide), by decide, .missing (by decide),
      by decide, .missing (by decide), by decide, ⟨_, ⟨_, rfl, rfl, rfl⟩, by decide⟩⟩
  exact align_loopHead hSource hOutput .default

end Pairing

end Retrace
