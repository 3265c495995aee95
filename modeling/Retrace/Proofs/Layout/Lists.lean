import Retrace.Proofs.Layout.Basic
import Retrace.Proofs.Separators

/-!
# Lists in delimiters

Calls, arrays and objects are lists of items in a pair of delimiters. Where such a list is laid
out as usual, with spacing around its items and commas, every fixed token of it is anchored:
the delimiters, and the commas after the same item as far as both lists have one
(`ListTokens.joined`). The items may hold commas and brackets of their own. Each comma is
looked for between two items, and the gap there has one comma and spacing around it; behind the
last item the gap has a trailing comma or none (`Site.Itemized.separatorAfter?_eq`).
-/

namespace Retrace

/-- Where the fixed tokens of a list stand. The commas are listed in the order of the items
they come after. -/
structure ListTokens where
  opening : Nat
  commas : List Nat
  closing : Nat

/-- The anchors of two lists: those of the opening delimiters, of the commas after the same
item, and of the closing delimiters. -/
def ListTokens.joined (s o : ListTokens) : List Anchor :=
  .plain s.opening o.opening ::
    (List.zipWith .plain s.commas o.commas ++ [.plain s.closing o.closing])

namespace Site

/-- What a list has from an offset on up to its closing delimiter: the items, a comma after
each of them, which may be missing after the last one, and spacing between all of these. -/
inductive Itemized (s : Site) (close : Nat) : Nat → List NodeId → List Nat → Prop where
  | empty {start : Nat} (hGap : s.text.Spaced start close) : Itemized s close start [] []
  | last {start : Nat} {item : NodeId} {span : Span} (hItem : s.Bare item span)
      (hBefore : s.text.Spaced start span.start) (hAfter : s.text.Spaced span.stop close) :
      Itemized s close start [item] []
  | comma {start place : Nat} {item : NodeId} {span : Span} {rest : List NodeId}
      {commas : List Nat} (hItem : s.Bare item span) (hBefore : s.text.Spaced start span.start)
      (hAfter : s.text.Spaced span.stop place) (hComma : s.text.startsWithAt place "," = true)
      (hRest : Itemized s close (place + 1) rest commas) :
      Itemized s close start (item :: rest) (place :: commas)

/-- The node ends with a list of items in the given delimiters. -/
structure Delimited (s : Site) (opening closing : String) (items : List NodeId)
    (t : ListTokens) : Prop where
  opening : s.text.startsWithAt t.opening opening = true
  items : s.Itemized t.closing (t.opening + 1) items t.commas
  closing : s.text.startsWithAt t.closing closing = true
  stop : t.closing + 1 = s.stop

/-- The node is a list of the given kind, laid out as usual. A call that is not optional has
its list behind the callee, with spacing between the two; an array without holes or an object
starts with its list. -/
inductive ListLaidOut (s : Site) : Kind → ListTokens → Prop where
  | call {n : Call} {callee : Span} {t : ListTokens}
      (hNode : s.node.construct = ⟨.callExpression, n⟩) (hPlain : n.isOptional = false)
      (hCallee : s.Bare n.callee callee) (hGap : s.text.Spaced callee.stop t.opening)
      (hList : s.Delimited "(" ")" n.arguments t) : ListLaidOut s .callExpression t
  | arrayExpression {items : List NodeId} {t : ListTokens}
      (hNode : s.node.construct = ⟨.arrayExpression, ⟨items.map some⟩⟩)
      (hStart : t.opening = s.start) (hList : s.Delimited "[" "]" items t) :
      ListLaidOut s .arrayExpression t
  | arrayPattern {items : List NodeId} {t : ListTokens}
      (hNode : s.node.construct = ⟨.arrayPattern, ⟨items.map some⟩⟩)
      (hStart : t.opening = s.start) (hList : s.Delimited "[" "]" items t) :
      ListLaidOut s .arrayPattern t
  | objectExpression {items : List NodeId} {t : ListTokens}
      (hNode : s.node.construct = ⟨.objectExpression, ⟨items⟩⟩)
      (hStart : t.opening = s.start) (hList : s.Delimited "\x7b" "\x7d" items t) :
      ListLaidOut s .objectExpression t
  | objectPattern {items : List NodeId} {t : ListTokens}
      (hNode : s.node.construct = ⟨.objectPattern, ⟨items⟩⟩)
      (hStart : t.opening = s.start) (hList : s.Delimited "\x7b" "\x7d" items t) :
      ListLaidOut s .objectPattern t

namespace Itemized

variable {s : Site} {close start : Nat} {items : List NodeId} {commas : List Nat}

theorem length_commas_le (h : s.Itemized close start items commas) :
    commas.length ≤ items.length := by
  induction h with
  | empty hGap => exact Nat.le_refl 0
  | last hItem hBefore hAfter => exact Nat.zero_le 1
  | comma hItem hBefore hAfter hComma hRest ih => exact Nat.succ_le_succ ih

theorem startsWithAt_of_mem {place : Nat} (h : s.Itemized close start items commas)
    (hMem : place ∈ commas) : s.text.startsWithAt place "," = true := by
  induction h with
  | empty hGap => cases hMem
  | last hItem hBefore hAfter => cases hMem
  | comma hItem hBefore hAfter hComma hRest ih =>
    rcases List.mem_cons.mp hMem with rfl | hLater
    · exact hComma
    · exact ih hLater

/-- Up to the first item, or to the closing delimiter, there is spacing. -/
theorem exists_next (h : s.Itemized close start items commas) :
    ∃ stop, s.text.Spaced start stop ∧
      ((items = [] ∧ stop = close) ∨
        ∃ first rest, items = first :: rest ∧ s.outerStart? first = some stop) := by
  cases h with
  | empty hGap => exact ⟨close, hGap, Or.inl ⟨rfl, rfl⟩⟩
  | last hItem hBefore hAfter => exact ⟨_, hBefore, Or.inr ⟨_, _, rfl, hItem.outerStart?⟩⟩
  | comma hItem hBefore hAfter hComma hRest =>
    exact ⟨_, hBefore, Or.inr ⟨_, _, rfl, hItem.outerStart?⟩⟩

/-- The comma after item `i` is found where the layout has it, and none is found if there is
none. -/
theorem separatorAfter?_eq (h : s.Itemized close start items commas) (i : Nat) :
    s.separatorAfter? (items.map some) i close "," = commas[i]? := by
  induction h generalizing i with
  | empty hGap => rfl
  | last hItem hBefore hAfter =>
    cases i with
    | zero =>
      have hNone : s.find? _ close "," = none :=
        Text.findBetween?_eq_none_of_spaced hAfter rfl (by decide)
      simpa [separatorAfter?, hItem.outerStop?] using hNone
    | succ i => rfl
  | @comma _ place _ _ rest _ hItem hBefore hAfter hComma hRest ih =>
    cases i with
    | zero =>
      -- The window ends at the next item, or at the closing delimiter behind a trailing comma.
      obtain ⟨stop, hGap, hNext⟩ := hRest.exists_next
      have hFind : s.find? _ stop "," = some place :=
        Text.findBetween?_of_spacing hAfter hComma rfl (by decide) hGap.ends.2 hGap.le
      rcases hNext with ⟨rfl, rfl⟩ | ⟨first, others, rfl, hFirst⟩
      · simpa [separatorAfter?, hItem.outerStop?] using hFind
      · simpa [separatorAfter?, hItem.outerStop?, hFirst] using hFind
    | succ i => exact ih i

end Itemized

end Site

/-! ## Two lists -/

@[simp]
theorem touchesHole_map_some (items : List NodeId) (i : Nat) :
    touchesHole (items.map some) i = false := by
  simp [touchesHole]

theorem flatMap_range_getElem? {α : Type} (xs : List α) (n : Nat) :
    ((List.range n).flatMap fun i => xs[i]?.toList) = xs.take n := by
  induction n with
  | zero => rfl
  | succ n ih =>
    rw [List.range_succ, List.flatMap_append, ih, List.flatMap_singleton, List.take_add_one]

namespace Pairing

variable {p : Pairing} {s o : List NodeId}

theorem holeProblems_map_some (c d : Nat) :
    holeProblems (s.map some) (o.map some) (some c, some d) = [] := by
  apply holeProblems_of_eq_empty
  rw [Set.eq_empty_iff_forall_notMem]
  intro i hMem
  simpa using (mem_besideHoles_iff.mp hMem).2

theorem separators_of_itemized {c d a b : Nat} {commas others : List Nat}
    (hSource : p.source.Itemized c a s commas) (hOutput : p.output.Itemized d b o others) :
    p.separators s o (some c, some d) "," = List.zipWith .plain commas others := by
  have hToken : ∀ i : Nat, p.token (commas[i]?, others[i]?) "," =
      (List.zipWith Anchor.plain commas others)[i]?.toList := by
    intro i
    rw [List.getElem?_zipWith]
    cases hComma : commas[i]? with
    | none => rfl
    | some place =>
      cases hOther : others[i]? with
      | none => rfl
      | some other =>
        exact token_of_startsWithAt (hSource.startsWithAt_of_mem (List.mem_of_getElem? hComma))
          (hOutput.startsWithAt_of_mem (List.mem_of_getElem? hOther))
  have hLength : (List.zipWith Anchor.plain commas others).length ≤
      min (s.map some).length (o.map some).length := by
    have hs := hSource.length_commas_le
    have ho := hOutput.length_commas_le
    simp only [List.length_zipWith, List.length_map]
    omega
  simp only [separators, sparseSeparators, touchesHole_map_some, Bool.or_self, if_false,
    hSource.separatorAfter?_eq, hOutput.separatorAfter?_eq, hToken, Bool.false_eq_true]
  rw [flatMap_range_getElem?, List.take_of_length_le hLength]

variable {opening closing : String} {a b : ListTokens}

theorem leading_of_delimited (hSource : p.source.Delimited opening closing s a)
    (hOutput : p.output.Delimited opening closing o b) (hStart : a.opening = p.source.start)
    (hStart' : b.opening = p.output.start) :
    p.leading opening = anchorEach a.opening b.opening opening.toList := by
  have hs := hSource.opening
  have ho := hOutput.opening
  rw [hStart] at hs ⊢
  rw [hStart'] at ho ⊢
  exact leading_of_startsWithAt hs ho

theorem trailing_of_delimited (hSource : p.source.Delimited opening closing s a)
    (hOutput : p.output.Delimited opening closing o b) (hSize : byteSize closing.toList = 1) :
    p.places (·.trailing? closing) = (some a.closing, some b.closing) ∧
      p.token (some a.closing, some b.closing) closing =
        anchorEach a.closing b.closing closing.toList := by
  refine ⟨places_trailing hSource.closing hOutput.closing ?_ ?_,
    token_of_startsWithAt hSource.closing hOutput.closing⟩
  · rw [hSize]
    exact hSource.stop
  · rw [hSize]
    exact hOutput.stop

end Pairing

namespace Rule

variable {p : Pairing} {a b : ListTokens}

theorem array_of_delimited {s o : List NodeId} (hSource : p.source.Delimited "[" "]" s a)
    (hOutput : p.output.Delimited "[" "]" o b) (hStart : a.opening = p.source.start)
    (hStart' : b.opening = p.output.start) :
    array p ⟨s.map some⟩ ⟨o.map some⟩ = ⟨a.joined b, []⟩ := by
  obtain ⟨hClose, hClosing⟩ := Pairing.trailing_of_delimited hSource hOutput rfl
  have hOpening := Pairing.leading_of_delimited hSource hOutput hStart hStart'
  have hCommas := Pairing.separators_of_itemized hSource.items hOutput.items
  unfold Pairing.separators at hCommas
  simp only [array, hClose, hOpening, hCommas, hClosing, Pairing.holeProblems_map_some]
  rfl

theorem object_of_delimited {s o : List NodeId}
    (hSource : p.source.Delimited "\x7b" "\x7d" s a)
    (hOutput : p.output.Delimited "\x7b" "\x7d" o b)
    (hStart : a.opening = p.source.start) (hStart' : b.opening = p.output.start) :
    object p ⟨s⟩ ⟨o⟩ = a.joined b := by
  obtain ⟨hClose, hClosing⟩ := Pairing.trailing_of_delimited hSource hOutput rfl
  have hOpening := Pairing.leading_of_delimited hSource hOutput hStart hStart'
  have hCommas := Pairing.separators_of_itemized hSource.items hOutput.items
  simp only [object, hClose, hOpening, hCommas, hClosing]
  rfl

/-- The window for the opening parenthesis ends at the first argument. Without arguments it
ends with the node, and the closing parenthesis does no harm. -/
theorem argumentsStart?_of_delimited {site : Site} {n : Call} {callee : Span} {t : ListTokens}
    (hCallee : site.Bare n.callee callee) (hGap : site.text.Spaced callee.stop t.opening)
    (hList : site.Delimited "(" ")" n.arguments t) : argumentsStart? site n = some t.opening := by
  obtain ⟨next, hSpaced, hNext⟩ := hList.items.exists_next
  have hFind : ∀ stop, site.text.StandsAt stop [] → next ≤ stop →
      site.find? callee.stop stop "(" = some t.opening := by
    intro stop hStop hOrder
    exact Text.findBetween?_of_spacing hGap hList.opening rfl (by decide) hStop
      (Nat.le_trans hSpaced.le hOrder)
  rcases hNext with ⟨hNone, rfl⟩ | ⟨first, rest, hSome, hFirst⟩
  · have hStop : site.text.StandsAt site.stop [] := by
      rw [← hList.stop]
      exact (Text.startsWithAt_iff.mp hList.closing).stop
    have hOrder : t.closing ≤ site.stop := by
      rw [← hList.stop]
      exact Nat.le_succ _
    simp [argumentsStart?, hNone, hCallee.outerStop?, hFind site.stop hStop hOrder]
  · simp [argumentsStart?, hSome, hFirst, hCallee.outerStop?,
      hFind next hSpaced.ends.2 (Nat.le_refl _)]

theorem call_of_delimited {s o : Call} {callee other : Span} (hPlain : s.isOptional = false)
    (hCallee : p.source.Bare s.callee callee) (hCallee' : p.output.Bare o.callee other)
    (hGap : p.source.text.Spaced callee.stop a.opening)
    (hGap' : p.output.text.Spaced other.stop b.opening)
    (hSource : p.source.Delimited "(" ")" s.arguments a)
    (hOutput : p.output.Delimited "(" ")" o.arguments b) : call p s o = a.joined b := by
  obtain ⟨hClose, hClosing⟩ := Pairing.trailing_of_delimited hSource hOutput rfl
  have hOpening := Pairing.token_of_startsWithAt hSource.opening hOutput.opening
  have hCommas := Pairing.separators_of_itemized hSource.items hOutput.items
  simp only [call, arguments, hPlain, argumentsStart?_of_delimited hCallee hGap hSource,
    argumentsStart?_of_delimited hCallee' hGap' hOutput, hClose, hOpening, hCommas, hClosing]
  rfl

end Rule

namespace Pairing

/-- **Every fixed token of a list is anchored.** Two calls that are not optional, two arrays
without holes or two objects, both laid out as usual: whatever the numbers and the texts of
their items are, the opening delimiters are joined, then the commas after the same item as far
as both lists have one there, then the closing delimiters, and nothing else is anchored or
reported. -/
theorem align_listLaidOut {p : Pairing} {kind : Kind} {a b : ListTokens}
    (hSource : p.source.ListLaidOut kind a) (hOutput : p.output.ListLaidOut kind b)
    (options : Options) : p.align options = ⟨a.joined b, []⟩ := by
  cases hSource with
  | call hNode hPlain hCallee hGap hList =>
    cases hOutput with
    | call hNode' _ hCallee' hGap' hList' =>
      rw [align_eq_sameKind hNode hNode' (by decide),
        ← Rule.call_of_delimited hPlain hCallee hCallee' hGap hGap' hList hList']
      rfl
  | arrayExpression hNode hStart hList =>
    cases hOutput with
    | arrayExpression hNode' hStart' hList' =>
      rw [align_eq_sameKind hNode hNode' (by decide)]
      exact Rule.array_of_delimited hList hList' hStart hStart'
  | arrayPattern hNode hStart hList =>
    cases hOutput with
    | arrayPattern hNode' hStart' hList' =>
      rw [align_eq_sameKind hNode hNode' (by decide)]
      exact Rule.array_of_delimited hList hList' hStart hStart'
  | objectExpression hNode hStart hList =>
    cases hOutput with
    | objectExpression hNode' hStart' hList' =>
      rw [align_eq_sameKind hNode hNode' (by decide),
        ← Rule.object_of_delimited hList hList' hStart hStart']
      rfl
  | objectPattern hNode hStart hList =>
    cases hOutput with
    | objectPattern hNode' hStart' hList' =>
      rw [align_eq_sameKind hNode hNode' (by decide),
        ← Rule.object_of_delimited hList hList' hStart hStart']
      rfl

/-- The call `f("," , g(x,y),)` becomes `h ( ")" ,z )`, with a wide blank behind the callee. -/
def respacedCall : Pairing where
  source :=
    let node : Node := ⟨.upTo 16, false, ⟨.callExpression, ⟨⟨1⟩, [⟨2⟩, ⟨3⟩], false⟩⟩⟩
    ⟨.ofString "f(\",\" , g(x,y),)",
      ⟨⟨0⟩, #[node, .bare 0 1 ⟨.identifier, ⟨"f"⟩⟩, .bare 2 3 ⟨.stringLiteral, ⟨","⟩⟩,
        .bare 8 6 ⟨.callExpression, ⟨⟨4⟩, [⟨5⟩, ⟨6⟩], false⟩⟩, .bare 8 1 ⟨.identifier, ⟨"g"⟩⟩,
        .bare 10 1 ⟨.identifier, ⟨"x"⟩⟩, .bare 12 1 ⟨.identifier, ⟨"y"⟩⟩]⟩,
      node⟩
  output :=
    let node : Node := ⟨.upTo 14, false, ⟨.callExpression, ⟨⟨1⟩, [⟨2⟩, ⟨3⟩], false⟩⟩⟩
    ⟨.ofString "h\u3000( \")\" ,z )",
      ⟨⟨0⟩, #[node, .bare 0 1 ⟨.identifier, ⟨"h"⟩⟩, .bare 6 3 ⟨.stringLiteral, ⟨")"⟩⟩,
        .bare 11 1 ⟨.identifier, ⟨"z"⟩⟩]⟩,
      node⟩

/-- The commas inside the arguments are passed over, and the trailing comma has no
counterpart. -/
theorem align_respacedCall :
    respacedCall.align .default = ⟨[.plain 1 4, .plain 6 10, .plain 15 13], []⟩ := by
  have hSource : respacedCall.source.ListLaidOut .callExpression ⟨1, [6, 14], 15⟩ := by
    refine .call rfl rfl ⟨_, rfl, rfl, rfl⟩ (by decide) ⟨by decide, ?_, by decide, rfl⟩
    refine .comma ⟨_, rfl, rfl, rfl⟩ (by decide) (by decide) (by decide) ?_
    refine .comma ⟨_, rfl, rfl, rfl⟩ (by decide) (by decide) (by decide) ?_
    exact .empty (by decide)
  have hOutput : respacedCall.output.ListLaidOut .callExpression ⟨4, [10], 13⟩ := by
    refine .call rfl rfl ⟨_, rfl, rfl, rfl⟩ (by decide) ⟨by decide, ?_, by decide, rfl⟩
    refine .comma ⟨_, rfl, rfl, rfl⟩ (by decide) (by decide) (by decide) ?_
    exact .last ⟨_, rfl, rfl, rfl⟩ (by decide) (by decide)
  exact align_listLaidOut hSource hOutput .default

end Pairing

end Retrace
