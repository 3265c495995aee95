import Mathlib.Data.List.Forall2
import Retrace.Proofs.Run

/-!
# Two runs side by side

Two alignments of one input under different options visit the same nodes. If the
ranges they make for each node are related, lie in the same place and come with the
same problems, then the two sets take in and refuse ranges in step: a conflict is
read off the spans and the nodes of two ranges, and so is the place of a new one.
This is `Progress.Related.visit`, and `related_progress` is what it gives for whole
runs.

The diagnostics of the two runs need not be equal. It is enough that what is
reported in the first run is a partial function of what is reported in the second;
whether and how something is reported has no effect on the set.
-/

namespace Retrace

/-! ## Sets of ranges in the same places -/

/-- Two ranges of one node between the same spans. -/
structure Range.SamePlace (r s : Range) : Prop where
  source : r.source = s.source
  output : r.output = s.output
  node : r.node = s.node

namespace Range.SamePlace

theorem refl (r : Range) : r.SamePlace r := ⟨rfl, rfl, rfl⟩

theorem conflict?_eq {r s r' s' : Range} (h : r.SamePlace s) (h' : r'.SamePlace s') :
    r.conflict? r' = s.conflict? s' := by
  simp only [conflict?, h.source, h.output, h.node, h'.source, h'.output, h'.node]

theorem le_eq {r s r' s' : Range} (h : r.SamePlace s) (h' : r'.SamePlace s') :
    r.le r' = s.le s' := by
  simp only [le, h.source, h.output, h'.source, h'.output]

end Range.SamePlace

section

variable {R : Range → Range → Prop} {xs ys : List Range} {r s : Range}

theorem any_getElem?_eq_of_forall₂ {before before' : Range → Bool} (h : List.Forall₂ R xs ys)
    (hBefore : ∀ a b, R a b → before a = before' b) (i : Nat) :
    (xs[i]?).any before = (ys[i]?).any before' := by
  induction h generalizing i with
  | nil => simp
  | cons hHead _ ih =>
    cases i with
    | zero => simpa using hBefore _ _ hHead
    | succ i => simpa using ih i

theorem partitionPointFrom_eq_of_forall₂ {before before' : Range → Bool}
    (h : List.Forall₂ R xs ys) (hBefore : ∀ a b, R a b → before a = before' b)
    (base size : Nat) :
    partitionPointFrom before xs base size = partitionPointFrom before' ys base size := by
  have hAny := any_getElem?_eq_of_forall₂ h hBefore
  fun_induction partitionPointFrom before xs base size with
  | case1 base size hSize hMember =>
    rw [partitionPointFrom, if_pos hSize, if_pos (by rwa [← hAny])]
  | case2 base size hSize hMember =>
    rw [partitionPointFrom, if_pos hSize, if_neg (by rwa [← hAny])]
  | case3 base size hSize half hMember ih =>
    rw [ih, partitionPointFrom.eq_def before' ys base size, if_neg hSize,
      if_pos (by rwa [← hAny])]
  | case4 base size hSize half hMember ih =>
    rw [ih, partitionPointFrom.eq_def before' ys base size, if_neg hSize,
      if_neg (by rwa [← hAny])]

theorem forall₂_insertIdx (h : List.Forall₂ R xs ys) (hNew : R r s) (i : Nat) :
    List.Forall₂ R (xs.insertIdx i r) (ys.insertIdx i s) := by
  induction h generalizing i with
  | nil =>
    cases i with
    | zero => exact .cons hNew .nil
    | succ i => simp
  | cons hHead hTail ih =>
    cases i with
    | zero => exact .cons hNew (.cons hHead hTail)
    | succ i => exact .cons hHead (ih i)

theorem findSome?_conflict?_eq (hPlace : ∀ a b, R a b → a.SamePlace b)
    (h : List.Forall₂ R xs ys) (hNew : R r s) :
    xs.findSome? r.conflict? = ys.findSome? s.conflict? := by
  induction h with
  | nil => rfl
  | cons hHead _ ih =>
    simp only [List.findSome?_cons, (hPlace _ _ hNew).conflict?_eq (hPlace _ _ hHead), ih]

/-- Two insertions of related ranges into related sets end the same way: both sets
refuse with the same conflict, or both take their range in at the same place. -/
theorem RangeSet.insert_related (hPlace : ∀ a b, R a b → a.SamePlace b)
    (h : List.Forall₂ R xs ys) (hNew : R r s) :
    (∃ conflict, RangeSet.insert ⟨xs⟩ r = .error conflict ∧
        RangeSet.insert ⟨ys⟩ s = .error conflict) ∨
      ∃ i, RangeSet.insert ⟨xs⟩ r = .ok ⟨xs.insertIdx i r⟩ ∧
        RangeSet.insert ⟨ys⟩ s = .ok ⟨ys.insertIdx i s⟩ := by
  have hConflict : RangeSet.conflict? ⟨xs⟩ r = RangeSet.conflict? ⟨ys⟩ s :=
    findSome?_conflict?_eq hPlace h hNew
  have hPosition : RangeSet.position ⟨xs⟩ r = RangeSet.position ⟨ys⟩ s := by
    simp only [RangeSet.position, partitionPoint, h.length_eq]
    exact partitionPointFrom_eq_of_forall₂ h
      (fun a b hab => (hPlace a b hab).le_eq (hPlace r s hNew)) 0 ys.length
  cases hOther : RangeSet.conflict? ⟨ys⟩ s with
  | some conflict =>
    rw [hOther] at hConflict
    exact Or.inl ⟨conflict, by simp [RangeSet.insert, hConflict],
      by simp [RangeSet.insert, hOther]⟩
  | none =>
    rw [hOther] at hConflict
    exact Or.inr ⟨RangeSet.position ⟨ys⟩ s, by simp [RangeSet.insert, hConflict, hPosition],
      by simp [RangeSet.insert, hOther]⟩

end

namespace Alignment

/-! ## Runs in step -/

/-- What ties a run under the options `a` to one under the options `b`: the two
ranges of each node are related, and what is reported about the first is `f` of what
is reported about the second. -/
structure InStep (a b : Options) (input : AlignmentInput) (R : Range → Range → Prop)
    (f : Diagnostic → Option Diagnostic) : Prop where
  place : ∀ r s, R r s → r.SamePlace s
  range : ∀ id n link r problems, input.outputTree.node? id = some n →
    input.provenance.get? id = some link →
    rangeOf? a input id n link = some (r, problems) →
    ∃ s, rangeOf? b input id n link = some (s, problems) ∧ R r s
  report : ∀ r s finding, R r s → report? a r finding = (report? b s finding).bind f

/-- What holds of the progress of two runs in step. -/
structure Progress.Related (R : Range → Range → Prop) (f : Diagnostic → Option Diagnostic)
    (p q : Progress) : Prop where
  ranges : List.Forall₂ R p.ranges.ranges q.ranges.ranges
  diagnostics : p.diagnostics = q.diagnostics.filterMap f
  synthesized : p.synthesized = q.synthesized

section

variable {a b : Options} {input : AlignmentInput} {R : Range → Range → Prop}
  {f : Diagnostic → Option Diagnostic} {p q : Progress}

theorem InStep.toList_report? (h : InStep a b input R f) {r s : Range} (hRelated : R r s)
    (finding : Finding) :
    (report? a r finding).toList = (report? b s finding).toList.filterMap f := by
  rw [h.report r s finding hRelated]
  cases report? b s finding with
  | none => rfl
  | some d => cases hRelabel : f d <;> simp [hRelabel]

theorem InStep.reports_eq (h : InStep a b input R f) {r s : Range} (hRelated : R r s) (n : Node)
    (link : Link) (problems : List Problem) :
    reports a n link r problems = (reports b n link s problems).filterMap f := by
  simp only [reports, List.filterMap_filterMap]
  refine List.filterMap_congr ?_
  intro problem _
  exact h.report r s _ hRelated

/-- One visit keeps two runs in step. -/
theorem Progress.Related.visit (h : p.Related R f q) (hStep : InStep a b input R f)
    (id : NodeId) : (p.visit a input id).Related R f (q.visit b input id) := by
  unfold Progress.visit
  cases hNode : input.outputTree.node? id with
  | none => exact h
  | some n =>
    cases hLink : input.provenance.get? id with
    | none => exact h
    | some link =>
      simp only [visitLinked]
      cases hMadeUp : link.isSynthesized with
      | true => exact ⟨h.ranges, h.diagnostics, by simp [h.synthesized]⟩
      | false =>
        obtain ⟨r, problems, hRange⟩ := exists_rangeOf? a input id n hMadeUp
        obtain ⟨s, hOther, hRelated⟩ := hStep.range id n link r problems hNode hLink hRange
        have hReports := hStep.reports_eq hRelated n link problems
        simp only [hRange, hOther, Bool.false_eq_true, if_false, splice]
        -- the two sets take the range in or refuse it together
        rcases RangeSet.insert_related hStep.place h.ranges hRelated with
          ⟨conflict, hLeft, hRight⟩ | ⟨i, hLeft, hRight⟩
        · simp only [hLeft, hRight]
          refine ⟨h.ranges, ?_, h.synthesized⟩
          rw [List.filterMap_append, List.filterMap_append, ← hStep.toList_report? hRelated,
            ← h.diagnostics]
          exact congrArg (p.diagnostics ++ · ++ _) hReports
        · simp only [hLeft, hRight]
          refine ⟨forall₂_insertIdx h.ranges hRelated i, ?_, h.synthesized⟩
          rw [List.filterMap_append, ← h.diagnostics]
          exact congrArg (p.diagnostics ++ ·) hReports

/-- Two runs that are tied node by node stay in step to the end. -/
theorem related_progress (h : InStep a b input R f) :
    (progress a input).Related R f (progress b input) := by
  unfold progress
  refine List.foldl_rel ⟨.nil, rfl, rfl⟩ ?_
  intro id _ p q hRelated
  exact hRelated.visit h id

end

end Alignment

end Retrace
