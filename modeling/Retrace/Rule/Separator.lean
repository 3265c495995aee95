import Retrace.Rule.Pairing

/-!
# Separators of lists

The separators of two lists are anchored item by item: the one after item `i` of
the source with the one after item `i` of the output, if both are there. A
trailing separator is looked for up to the end of the list, so it can be paired
with one between two items.

Next to a hole it cannot be told which separator is which. None is anchored
there, and the first such place is reported.
-/

namespace Retrace

namespace Site

/-- The separator after item `i`, looked for up to the next item or to the end of
the list. -/
def separatorAfter? (s : Site) (items : List (Option NodeId)) (i close : Nat) (token : String) :
    Option Nat := do
  let item ← (← items[i]?)
  let start ← s.outerStop? item
  let stop ←
    match items[i + 1]? with
    | some next => s.outerStart? (← next)
    | none => some close
  s.find? start stop token

end Site

/-- Item `i` or the item after it is a hole. -/
def touchesHole (items : List (Option NodeId)) (i : Nat) : Bool :=
  decide (items[i]? = some none) || decide (items[i + 1]? = some none)

namespace Pairing

/-- Anchors the separators of two lists that may have holes, up to where the lists
end. -/
def sparseSeparators (p : Pairing) (s o : List (Option NodeId)) (close : Places)
    (token : String) : List Anchor :=
  match close with
  | (some sourceClose, some outputClose) =>
    (List.range (min s.length o.length)).flatMap fun i =>
      if touchesHole s i || touchesHole o i then []
      else
        p.token
          (p.source.separatorAfter? s i sourceClose token,
            p.output.separatorAfter? o i outputClose token)
          token
  | _ => []

/-- The separator that is left out for a hole, if there is one. -/
def holeProblems (s o : List (Option NodeId)) (close : Places) : List Problem :=
  match close with
  | (some _, some _) =>
    match (List.range (min s.length o.length)).find? fun i =>
        touchesHole s i || touchesHole o i with
    | some first =>
      [.ambiguous ("sparse collection: separator after element " ++ toString first ++
        " sits next to a hole")]
    | none => []
  | _ => []

/-- Anchors the separators of two lists without holes. -/
def separators (p : Pairing) (s o : List NodeId) (close : Places) (token : String) :
    List Anchor :=
  p.sparseSeparators (s.map some) (o.map some) close token

end Pairing

end Retrace
