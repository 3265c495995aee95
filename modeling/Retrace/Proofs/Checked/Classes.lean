import Mathlib.Data.List.Basic
import Retrace.Proofs.Checked.Walk
import Retrace.Proofs.Classes

/-!
# Checked classes of bytes

The classes are painted: a list with one entry for each byte is filled stretch by
stretch, in the order of the walk, so that what is painted last is on top. The ends of
a stretch are cut off at the size of the text, which keeps it inside the list and its
ends in order. What the list holds in the end is what the layers of the tree say
about each byte (`paint_eq`).

The runs of a class are read off the list from the front. A run that has been entered
is closed at the first byte of another class, or at the end, so it ends behind its
start; the runs are those that the recursion from the back gives (`scan_eq`).
-/

namespace Retrace

/-- A span in front of runs; it is joined to the first of them if they touch. -/
def joinRun (s : Span) : List Span → List Span
  | [] => [s]
  | run :: rest => if run.start = s.stop then s.cover run :: rest else s :: run :: rest

/-- A byte at the end of a span makes the span longer. -/
theorem joinRun_extendRuns {start i : Nat} (hOrder : start ≤ i) (later : List Span) :
    joinRun ⟨start, i, hOrder⟩ (extendRuns i later) =
      joinRun ⟨start, i + 1, Nat.le_succ_of_le hOrder⟩ later := by
  cases later with
  | nil =>
    simp only [extendRuns, joinRun, Span.byte, if_true, Span.cover, List.cons.injEq, and_true,
      Span.mk.injEq]
    omega
  | cons run rest =>
    have hRun := run.start_le_stop
    rw [extendRuns]
    split_ifs with hTouch
    · have hFirst : ((Span.byte i).cover run).start = i := by
        simp only [Span.cover, Span.byte]
        omega
      rw [joinRun, if_pos hFirst, joinRun, if_pos hTouch]
      simp only [Span.cover, Span.byte, List.cons.injEq, and_true, Span.mk.injEq]
      omega
    · have hFirst : (Span.byte i).start = i := rfl
      rw [joinRun, if_pos hFirst, joinRun, if_neg hTouch]
      simp only [Span.cover, Span.byte, List.cons.injEq, and_true, Span.mk.injEq]
      omega

/-- A span that a free byte follows is joined to nothing. -/
theorem joinRun_runsFrom {start i : Nat} (hOrder : start ≤ i) (members : List Bool) :
    joinRun ⟨start, i, hOrder⟩ (runsFrom (i + 1) members) =
      ⟨start, i, hOrder⟩ :: runsFrom (i + 1) members := by
  have hWithin := (separated_runsFrom (i + 1) members).within
  cases hRuns : runsFrom (i + 1) members with
  | nil => rfl
  | cons run rest =>
    rw [hRuns] at hWithin
    have hStart := (hWithin run List.mem_cons_self).1
    rw [joinRun, if_neg (by dsimp only; omega)]

theorem zipIdx_map_range {α : Type} (size : Nat) (f : Nat → α) :
    ((List.range size).map f).zipIdx = (List.range size).map fun i => (f i, i) := by
  refine List.ext_getElem (by simp) ?_
  intro i hLeft hRight
  simp

namespace Checked

/-! ## Painting -/

/-- A list with a stretch of its entries replaced. -/
def fill {α : Type} (bytes : List α) (start stop : Nat) (value : α) : Checked (List α) :=
  if start ≤ stop ∧ stop ≤ bytes.length then
    .ok (bytes.take start ++ List.replicate (stop - start) value ++ bytes.drop stop)
  else .error .outOfRange

/-- Paints a span over the first `size` bytes of a text. -/
def coat {α : Type} (size : Nat) (bytes : List α) (s : Span) (value : α) : Checked (List α) :=
  fill bytes (min s.start size) (min s.stop size) value

/-- Paints the nodes of a tree one over the other. -/
def paint {α : Type} (t : Tree) (size : Nat) (blank : α) (value : NodeId → α) :
    Checked (List α) := do
  (← preorder t).foldlM
    (fun bytes id =>
      match t.node? id with
      | some n => coat size bytes n.span (value id)
      | none => return bytes)
    (List.replicate size blank)

theorem fill_map {α : Type} {size start stop : Nat} (hOrder : start ≤ stop) (hSize : stop ≤ size)
    (f : Nat → α) (value : α) :
    fill ((List.range size).map f) start stop value =
      .ok ((List.range size).map fun i => if start ≤ i ∧ i < stop then value else f i) := by
  have hBounds : start ≤ stop ∧ stop ≤ ((List.range size).map f).length := by simp [hOrder, hSize]
  rw [fill, if_pos hBounds]
  refine congrArg Except.ok (List.ext_getElem (by simp; omega) ?_)
  intro i hLeft hRight
  simp only [List.getElem_append, List.getElem_take, List.getElem_replicate, List.getElem_drop,
    List.getElem_map, List.getElem_range, List.length_append, List.length_take, List.length_map,
    List.length_range, List.length_replicate]
  split_ifs <;> first | rfl | omega | skip
  congr 1
  omega

theorem coat_map {α : Type} (size : Nat) (f : Nat → α) (s : Span) (value : α) :
    coat size ((List.range size).map f) s value =
      .ok ((List.range size).map fun i => if s.contains i then value else f i) := by
  have hOrder := s.start_le_stop
  rw [coat, fill_map (by omega) (by omega)]
  refine congrArg Except.ok (List.map_congr_left ?_)
  intro i hi
  have hInside := List.mem_range.mp hi
  refine if_congr ?_ rfl rfl
  rw [Span.contains_iff]
  omega

/-- Spans painted one after the other in one colour. -/
theorem foldlM_coat {α : Type} (size : Nat) (value : α) (spans : List Span) (f : Nat → α) :
    spans.foldlM (fun bytes s => coat size bytes s value) ((List.range size).map f) =
      .ok ((List.range size).map fun i => if spans.any (·.contains i) then value else f i) := by
  induction spans generalizing f with
  | nil => simp
  | cons s spans ih =>
    rw [List.foldlM_cons, coat_map, ok_bind, ih]
    refine congrArg Except.ok (List.map_congr_left ?_)
    intro i _
    rw [List.any_cons]
    cases s.contains i <;> cases spans.any (·.contains i) <;> rfl

theorem ownerIn?_append (front back : List (NodeId × Span)) (i : Nat) :
    ownerIn? (front ++ back) i = (ownerIn? front i).or (ownerIn? back i) := by
  simp only [ownerIn?, List.find?_append]
  cases front.find? fun layer => layer.2.contains i <;> simp

/-- What is painted last is on top. -/
theorem foldlM_paint {α : Type} (t : Tree) (size : Nat) (value : NodeId → α) (walk : List NodeId)
    (f : Nat → α) :
    walk.foldlM
        (fun bytes id =>
          match t.node? id with
          | some n => coat size bytes n.span (value id)
          | none => (return bytes : Checked (List α)))
        ((List.range size).map f) =
      .ok ((List.range size).map fun i =>
        ((ownerIn? (walk.filterMap fun id => (t.node? id).map fun n => (id, n.span)).reverse
          i).map value).getD (f i)) := by
  induction walk generalizing f with
  | nil => simp [ownerIn?]
  | cons id walk ih =>
    cases hNode : t.node? id with
    | none =>
      simp only [List.foldlM_cons, hNode, pure_bind, ih, List.filterMap_cons, Option.map_none]
    | some n =>
      simp only [List.foldlM_cons, hNode, coat_map, ok_bind, ih, List.filterMap_cons,
        Option.map_some, List.reverse_cons, ownerIn?_append]
      -- the rest of the walk paints over this node, so its layer is asked last
      refine congrArg Except.ok (List.map_congr_left ?_)
      intro i _
      cases ownerIn? (walk.filterMap fun id => (t.node? id).map fun n => (id, n.span)).reverse i
      · cases hContains : n.span.contains i <;> simp [ownerIn?, hContains]
      · rfl

@[simp]
theorem paint_eq {α : Type} (t : Tree) (size : Nat) (blank : α) (value : NodeId → α) :
    paint t size blank value =
      .ok ((List.range size).map fun i => ((t.ownerAt? i).map value).getD blank) := by
  have hBlank : List.replicate size blank = (List.range size).map fun _ => blank := by
    rw [List.map_const', List.length_range]
  rw [paint, preorder_eq, ok_bind, hBlank]
  exact foldlM_paint t size value t.preorder fun _ => blank

/-! ## Runs -/

/-- Reads the runs of a class off a list of bytes from the front. A run that has been
entered is handed on with its start. -/
def scan (cls : CharClass) : Nat → Option Nat → List CharClass → Checked (List Span)
  | _, none, [] => return []
  | i, some start, [] => do return [← span (← number start) (← number i)]
  | i, none, c :: rest =>
    if c = cls then scan cls (i + 1) (some i) rest else scan cls (i + 1) none rest
  | i, some start, c :: rest =>
    if c = cls then scan cls (i + 1) (some start) rest
    else do
      let run ← span (← number start) (← number i)
      return run :: (← scan cls (i + 1) none rest)

/-- The two states of a scan have to be followed together: outside a run, and inside one
that began at `start`. -/
theorem scan_eq (cls : CharClass) (bytes : List CharClass) {i : Nat}
    (hSize : i + bytes.length < offsetBound) :
    scan cls i none bytes = .ok (runsFrom i (bytes.map fun c => decide (c = cls))) ∧
      ∀ start (hOrder : start ≤ i), scan cls i (some start) bytes =
        .ok (joinRun ⟨start, i, hOrder⟩ (runsFrom i (bytes.map fun c => decide (c = cls)))) := by
  induction bytes generalizing i with
  | nil =>
    refine ⟨rfl, fun start hOrder => ?_⟩
    rw [List.length_nil] at hSize
    rw [scan, number_eq (by omega), number_eq (by omega), ok_bind, ok_bind, span_eq hOrder]
    rfl
  | cons c bytes ih =>
    rw [List.length_cons] at hSize
    obtain ⟨hOutside, hInside⟩ := @ih (i + 1) (by omega)
    have hStart : i < offsetBound := by omega
    by_cases hClass : c = cls
    · refine ⟨?_, fun start hOrder => ?_⟩
      · rw [scan, if_pos hClass, hInside i (Nat.le_succ i), List.map_cons, runsFrom,
          decide_eq_true hClass]
        rfl
      · rw [scan, if_pos hClass, hInside start (Nat.le_succ_of_le hOrder), List.map_cons, runsFrom,
          decide_eq_true hClass]
        exact congrArg Except.ok (joinRun_extendRuns hOrder _).symm
    · refine ⟨?_, fun start hOrder => ?_⟩
      · rw [scan, if_neg hClass, hOutside, List.map_cons, runsFrom, decide_eq_false hClass]
        rfl
      · rw [scan, if_neg hClass, number_eq (by omega), number_eq hStart, ok_bind, ok_bind,
          span_eq hOrder, ok_bind, hOutside, List.map_cons, runsFrom, decide_eq_false hClass]
        exact congrArg Except.ok (joinRun_runsFrom hOrder _).symm

/-! ## Classes -/

/-- The output spans of the characters that were put in place of others. -/
def replacements (s : RangeSet) : Checked (List Span) :=
  collect s.ranges fun r => collect r.anchors fun a =>
    match a.replacement? with
    | some c => do return [← span a.output (← add a.output c.utf8Size)]
    | none => return []

/-- The classes of the bytes of two texts of given sizes. -/
def classes (source output : Tree) (sourceSize outputSize : Nat) (ranges : RangeSet) :
    Checked Classes := do
  let owners ← paint output outputSize false ranges.hasNode
  let replaced ← replacements ranges
  let outputBytes := owners.zipIdx.map fun (linked, i) =>
    if linked then if replaced.any (·.contains i) then CharClass.substituted else .carried
    else .inserted
  let painted ← paint source sourceSize CharClass.removed fun id =>
    if id ∈ ranges.mappedNodes then .carried else .removed
  let sourceBytes ← ranges.unresolvedSpans.foldlM
    (fun bytes s => coat sourceSize bytes s CharClass.carried) painted
  return {
    carried := ← scan .carried 0 none outputBytes
    substituted := ← scan .substituted 0 none outputBytes
    inserted := ← scan .inserted 0 none outputBytes
    removed := ← scan .removed 0 none sourceBytes }

theorem replacements_eq {s : RangeSet}
    (h : ∀ r ∈ s.ranges, ∀ a ∈ r.anchors, ∀ c, a.replacement? = some c →
      a.output + c.utf8Size < offsetBound) : replacements s = .ok s.replacements := by
  refine collect_eq ?_
  intro r hr
  rw [List.filterMap_eq_flatMap_toList]
  refine collect_eq ?_
  intro a ha
  cases hReplaced : a.replacement? with
  | none => rfl
  | some c =>
    dsimp only
    rw [add_eq (h r hr a ha c hReplaced), ok_bind, span_eq (Nat.le_add_right _ _)]
    rfl

theorem outputClassOf_eq (ranges : RangeSet) (replaced : List Span) (owner : Option NodeId)
    (i : Nat) :
    outputClassOf ranges replaced owner i =
      if (owner.map ranges.hasNode).getD false then
        if replaced.any (·.contains i) then .substituted else .carried
      else .inserted := by
  cases owner <;> rfl

theorem isRemovedOf_eq (mapped : List NodeId) (unresolved : List Span) (owner : Option NodeId)
    (i : Nat) :
    isRemovedOf mapped unresolved owner i =
      decide ((if unresolved.any (·.contains i) then CharClass.carried
        else (owner.map fun id => if id ∈ mapped then CharClass.carried else .removed).getD
          .removed) = .removed) := by
  unfold isRemovedOf
  cases unresolved.any (·.contains i) with
  | true => rfl
  | false =>
    cases owner with
    | none => rfl
    | some id => by_cases hMapped : id ∈ mapped <;> simp [hMapped]

theorem classes_eq {source output : Tree} {sourceSize outputSize : Nat} {ranges : RangeSet}
    (hSource : sourceSize < offsetBound) (hOutput : outputSize < offsetBound)
    (hReplaced : ∀ r ∈ ranges.ranges, ∀ a ∈ r.anchors, ∀ c, a.replacement? = some c →
      a.output + c.utf8Size < offsetBound) :
    classes source output sourceSize outputSize ranges =
      .ok (.ofRanges source output sourceSize outputSize ranges) := by
  have hScan (cls : CharClass) {size : Nat} (hSize : size < offsetBound) (f : Nat → CharClass) :
      scan cls 0 none ((List.range size).map f) =
        .ok (runsFrom 0 (((List.range size).map f).map fun c => decide (c = cls))) :=
    (scan_eq cls _ (by simpa using hSize)).1
  simp only [classes, paint_eq, ok_bind, replacements_eq hReplaced, zipIdx_map_range,
    foldlM_coat, List.map_map, hScan _ hSource, hScan _ hOutput, pure_eq_ok, Classes.ofRanges,
    runs, Function.comp_def, outputClassOf_eq, isRemovedOf_eq, Tree.ownerAt?]

end Checked

end Retrace
