import Mathlib.Data.List.Forall2
import Retrace.Proofs.Layout.Basic

/-!
# Expressions in templates

The text of a template can hold everything that marks an expression in it: dollar signs,
braces, and both together. The marks of an expression are found all the same, because they are
looked for from the expression outwards. Before the expression the last opening mark is taken,
and between that and the expression there is only spacing; behind it the first closing brace is
taken, and up to that there is only spacing. So nothing is asked of the rest of the template
(`Site.Marked`), not even that its expressions are in order.
-/

namespace Retrace

/-- Where the marks around an expression of a template stand. -/
structure Marks where
  opening : Nat
  closing : Nat

/-- The anchors of the marks of two expressions. -/
def Marks.joined (s o : Marks) : List Anchor :=
  [.plain s.opening o.opening, .plain (s.opening + 1) (o.opening + 1), .plain s.closing o.closing]

namespace Site

/-- An expression of a template stands between its marks, with spacing around it, and the marks
belong to the node. -/
structure Marked (s : Site) (child : NodeId) (m : Marks) : Prop where
  start : s.start ≤ m.opening
  opening : s.text.startsWithAt m.opening "$\x7b" = true
  child : ∃ span, s.Bare child span ∧ s.text.Spaced (m.opening + 2) span.start ∧
    s.text.Spaced span.stop m.closing
  closing : s.text.startsWithAt m.closing "\x7d" = true
  stop : m.closing + 1 ≤ s.stop

/-- The node is a template that starts with a backtick and ends with one at `close`, and its
expressions stand between the given marks. -/
structure TemplateLaidOut (s : Site) (n : TemplateLiteral) (marks : List Marks) (close : Nat) :
    Prop where
  node : s.node.construct = ⟨.templateLiteral, n⟩
  opening : s.text.startsWithAt s.start "`" = true
  expressions : List.Forall₂ s.Marked n.expressions marks
  closing : s.text.startsWithAt close "`" = true
  stop : close + 1 = s.stop

variable {s : Site} {child : NodeId} {m : Marks}

theorem Marked.lastBefore?_eq (h : s.Marked child m) (hStart : s.text.StandsAt s.start []) :
    s.lastBefore? child "$\x7b" = some m.opening := by
  obtain ⟨span, hChild, hBefore, -⟩ := h.child
  simp only [lastBefore?, hChild.outerStart?]
  exact Text.rfindBetween?_of_spacing h.opening rfl (by decide) (by decide) hBefore hStart h.start

theorem Marked.after?_eq (h : s.Marked child m) (hStop : s.text.StandsAt s.stop []) :
    s.after? child "\x7d" = some m.closing := by
  obtain ⟨span, hChild, -, hAfter⟩ := h.child
  simp only [after?, hChild.outerStop?]
  exact Text.findBetween?_of_spacing hAfter h.closing rfl (by decide) hStop h.stop

theorem TemplateLaidOut.ends {n : TemplateLiteral} {marks : List Marks} {close : Nat}
    (h : s.TemplateLaidOut n marks close) :
    s.text.StandsAt s.start [] ∧ s.text.StandsAt s.stop [] := by
  refine ⟨Text.StandsAt.part [] [] "`".toList (Text.startsWithAt_iff.mp h.opening), ?_⟩
  rw [← h.stop]
  exact (Text.startsWithAt_iff.mp h.closing).stop

end Site

namespace Pairing

variable {p : Pairing}

/-- The marks of two expressions are joined, wherever else such marks stand. -/
theorem tokens_of_marked {a b : NodeId} {m l : Marks} (hSource : p.source.Marked a m)
    (hOutput : p.output.Marked b l)
    (hEnds : p.source.text.StandsAt p.source.start [] ∧ p.source.text.StandsAt p.source.stop [])
    (hEnds' : p.output.text.StandsAt p.output.start [] ∧ p.output.text.StandsAt p.output.stop []) :
    p.token (p.source.lastBefore? a "$\x7b", p.output.lastBefore? b "$\x7b") "$\x7b" ++
      p.token (p.source.after? a "\x7d", p.output.after? b "\x7d") "\x7d" = m.joined l := by
  rw [hSource.lastBefore?_eq hEnds.1, hOutput.lastBefore?_eq hEnds'.1, hSource.after?_eq hEnds.2,
    hOutput.after?_eq hEnds'.2, token_of_startsWithAt hSource.opening hOutput.opening,
    token_of_startsWithAt hSource.closing hOutput.closing]
  rfl

theorem flatMap_zip_of_marked {xs ys : List NodeId} {marks others : List Marks}
    (hSource : List.Forall₂ p.source.Marked xs marks)
    (hOutput : List.Forall₂ p.output.Marked ys others)
    (hEnds : p.source.text.StandsAt p.source.start [] ∧ p.source.text.StandsAt p.source.stop [])
    (hEnds' : p.output.text.StandsAt p.output.start [] ∧ p.output.text.StandsAt p.output.stop []) :
    ((xs.zip ys).flatMap fun (a, b) =>
      p.token (p.source.lastBefore? a "$\x7b", p.output.lastBefore? b "$\x7b") "$\x7b" ++
        p.token (p.source.after? a "\x7d", p.output.after? b "\x7d") "\x7d") =
      (marks.zip others).flatMap fun (m, l) => m.joined l := by
  induction hSource generalizing ys others with
  | nil => rfl
  | cons hFirst hRest ih =>
    cases hOutput with
    | nil => rfl
    | cons hFirst' hRest' =>
      rw [List.zip_cons_cons, List.zip_cons_cons, List.flatMap_cons, List.flatMap_cons, ih hRest']
      exact congrArg (· ++ _) (tokens_of_marked hFirst hFirst' hEnds hEnds')

/-- **The marks of expressions are told apart from the text of a template.** For two templates
whose expressions stand between their marks with nothing but spacing around them, whatever the
texts and the expressions are, the opening backticks are joined, then the marks of the
expressions with the same number, then the closing backticks, and nothing else is anchored or
reported. -/
theorem align_templateLaidOut {s o : TemplateLiteral} {marks others : List Marks} {c d : Nat}
    (hSource : p.source.TemplateLaidOut s marks c) (hOutput : p.output.TemplateLaidOut o others d)
    (options : Options) :
    p.align options =
      ⟨.plain p.source.start p.output.start ::
        (((marks.zip others).flatMap fun (m, l) => m.joined l) ++ [.plain c d]), []⟩ := by
  have hOpening := leading_of_startsWithAt hSource.opening hOutput.opening
  have hExpressions := flatMap_zip_of_marked hSource.expressions hOutput.expressions hSource.ends
    hOutput.ends
  have hClosing : p.trailing "`" = [.plain c d] := by
    rw [trailing, places_trailing hSource.closing hOutput.closing hSource.stop hOutput.stop]
    exact token_of_startsWithAt hSource.closing hOutput.closing
  rw [align_eq_sameKind hSource.node hOutput.node (by decide)]
  simp only [Rule.sameKind, Rule.template, hOpening, hExpressions, hClosing]
  rfl

/-- The source is a template of the texts `}`, `$` and an escaped backtick, with a name and a
template between them. The output has a string with a brace in place of that template, and one
expression more. -/
def nestedTemplate : Pairing where
  source :=
    let node : Node := ⟨.upTo 20, false, ⟨.templateLiteral, ⟨[⟨3⟩, ⟨4⟩, ⟨5⟩], [⟨1⟩, ⟨2⟩]⟩⟩⟩
    ⟨.ofString "`\x7d$\x7b a\x7d$$\x7b`$\x7bb\x7d`\x7d\\``",
      ⟨⟨0⟩, #[node, .bare 5 1 ⟨.identifier, ⟨"a"⟩⟩,
        .bare 10 6 ⟨.templateLiteral, ⟨[⟨7⟩, ⟨8⟩], [⟨6⟩]⟩⟩,
        .bare 1 1 ⟨.templateElement, ⟨"\x7d", false⟩⟩,
        .bare 7 1 ⟨.templateElement, ⟨"$", false⟩⟩,
        .bare 17 2 ⟨.templateElement, ⟨"\\`", true⟩⟩, .bare 13 1 ⟨.identifier, ⟨"b"⟩⟩,
        .bare 11 0 ⟨.templateElement, ⟨"", false⟩⟩, .bare 15 0 ⟨.templateElement, ⟨"", true⟩⟩]⟩,
      node⟩
  output :=
    let node : Node :=
      ⟨.upTo 18, false, ⟨.templateLiteral, ⟨[⟨4⟩, ⟨5⟩, ⟨6⟩, ⟨7⟩], [⟨1⟩, ⟨2⟩, ⟨3⟩]⟩⟩⟩
    ⟨.ofString "`$\x7bc \x7d$\x7b\"\x7d\"\x7dx$\x7bd\x7d`",
      ⟨⟨0⟩, #[node, .bare 3 1 ⟨.identifier, ⟨"c"⟩⟩, .bare 8 3 ⟨.stringLiteral, ⟨"\x7d"⟩⟩,
        .bare 15 1 ⟨.identifier, ⟨"d"⟩⟩, .bare 1 0 ⟨.templateElement, ⟨"", false⟩⟩,
        .bare 6 0 ⟨.templateElement, ⟨"", false⟩⟩, .bare 12 1 ⟨.templateElement, ⟨"x", false⟩⟩,
        .bare 17 0 ⟨.templateElement, ⟨"", true⟩⟩]⟩,
      node⟩

theorem align_nestedTemplate :
    nestedTemplate.align .default =
      ⟨[.plain 0 0, .plain 2 1, .plain 3 2, .plain 6 5, .plain 8 6, .plain 9 7, .plain 16 11,
        .plain 19 17], []⟩ := by
  have hSource : nestedTemplate.source.TemplateLaidOut
      ⟨[⟨3⟩, ⟨4⟩, ⟨5⟩], [⟨1⟩, ⟨2⟩]⟩ [⟨2, 6⟩, ⟨8, 16⟩] 19 :=
    ⟨rfl, by decide,
      .cons ⟨by decide, by decide, ⟨_, ⟨_, rfl, rfl, rfl⟩, by decide, by decide⟩, by decide,
        by decide⟩
      (.cons ⟨by decide, by decide, ⟨_, ⟨_, rfl, rfl, rfl⟩, by decide, by decide⟩, by decide,
        by decide⟩ .nil), by decide, by decide⟩
  have hOutput : nestedTemplate.output.TemplateLaidOut
      ⟨[⟨4⟩, ⟨5⟩, ⟨6⟩, ⟨7⟩], [⟨1⟩, ⟨2⟩, ⟨3⟩]⟩ [⟨1, 5⟩, ⟨6, 11⟩, ⟨13, 16⟩] 17 :=
    ⟨rfl, by decide,
      .cons ⟨by decide, by decide, ⟨_, ⟨_, rfl, rfl, rfl⟩, by decide, by decide⟩, by decide,
        by decide⟩
      (.cons ⟨by decide, by decide, ⟨_, ⟨_, rfl, rfl, rfl⟩, by decide, by decide⟩, by decide,
        by decide⟩
      (.cons ⟨by decide, by decide, ⟨_, ⟨_, rfl, rfl, rfl⟩, by decide, by decide⟩, by decide,
        by decide⟩ .nil)), by decide, by decide⟩
  exact align_templateLaidOut hSource hOutput .default

end Pairing

end Retrace
