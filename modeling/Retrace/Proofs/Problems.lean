import Retrace.Alignment.Basic

/-!
# What rules report

A rule reports a pair of kinds that it does not know, or the first separator that
it leaves out next to a hole; nothing else is ever reported by a rule
(`problem_of_mem_align`). The wording of the second never agrees with that of a
conflict between two ranges (`sparseReason_ne_message`), so a diagnostic shows
which of the two it was made for.
-/

namespace Retrace

/-- The wording for a separator that is left out after element `i`. -/
def sparseReason (i : Nat) : String :=
  "sparse collection: separator after element " ++ toString i ++ " sits next to a hole"

theorem head?_sparseReason (i : Nat) : (sparseReason i).toList.head? = some 's' := by
  delta sparseReason
  simp

/-- A conflict starts with the title of a side or with the number of a node. -/
theorem head?_message (c : Conflict) :
    c.message.toList.head? = some 'S' ∨ c.message.toList.head? = some 'O' ∨
      c.message.toList.head? = some '#' := by
  cases c with
  | crossing node existing side => cases side <;> simp [Conflict.message, Side.title]
  | invertedNesting node existing => simp [Conflict.message, NodeId.text]

theorem sparseReason_ne_message (i : Nat) (c : Conflict) : sparseReason i ≠ c.message := by
  intro hEqual
  have hFirst := head?_message c
  rw [← hEqual, head?_sparseReason] at hFirst
  rcases hFirst with h | h | h <;> simp at h

/-- The wording shows which of the two conflicts there was. -/
theorem message_crossing_ne (node existing a b : NodeId) (side : Side) :
    (Conflict.crossing node existing side).message ≠ (Conflict.invertedNesting a b).message := by
  intro hEqual
  have hFirst := congrArg (fun s : String => s.toList.head?) hEqual
  cases side <;> simp [Conflict.message, Side.title, NodeId.text] at hFirst

theorem problem_of_mem_holeProblems {s o : List (Option NodeId)} {close : Places}
    {problem : Problem} (h : problem ∈ Pairing.holeProblems s o close) :
    ∃ i, problem = .ambiguous (sparseReason i) := by
  unfold Pairing.holeProblems at h
  split at h
  · split at h
    · rename_i first _
      exact ⟨first, List.mem_singleton.mp h⟩
    · cases h
  · cases h

theorem problem_of_mem_sameKind {options : Options} {p : Pairing} {kind : Kind}
    {s o : Payload kind} {problem : Problem}
    (h : problem ∈ (Rule.sameKind options p kind s o).problems) :
    ∃ i, problem = .ambiguous (sparseReason i) := by
  cases kind
  case arrayExpression => exact problem_of_mem_holeProblems h
  case arrayPattern => exact problem_of_mem_holeProblems h
  all_goals cases h

theorem problem_of_mem_reshape {p : Pairing} {source output : Construct} {problem : Problem}
    (h : problem ∈ (Rule.reshape p source output).problems) : problem = .unsupported := by
  unfold Rule.reshape at h
  split at h
  case h_6 =>
    split at h
    · cases h
    · exact List.mem_singleton.mp h
  case h_8 => exact List.mem_singleton.mp h
  all_goals cases h

/-- A rule reports an unknown pair of kinds or a separator next to a hole. -/
theorem Pairing.problem_of_mem_align {p : Pairing} {options : Options} {problem : Problem}
    (h : problem ∈ (p.align options).problems) :
    problem = .unsupported ∨ ∃ i, problem = .ambiguous (sparseReason i) := by
  unfold Pairing.align Rule.outcome at h
  split at h
  · cases h
  · split at h
    · exact Or.inr (problem_of_mem_sameKind h)
    · exact Or.inl (problem_of_mem_reshape h)

end Retrace
