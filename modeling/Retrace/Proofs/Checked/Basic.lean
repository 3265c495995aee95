import Retrace.Span

/-!
# Checked computations

A machine computes with offsets of 32 bits, and its lists end somewhere. It stops
where a sum is too large, where more is taken from a number than there is, where a
span would start behind its end and where a list is asked for an entry it does not
have (`Trap`). A checked computation is one that makes these tests at every step, so
that to say that it gives a result is to say that no step of it went wrong.

A look-up can also fail to find what it looks for, which is no trap: it is a checked
computation of an `Option`. The functions of this directory are those of the program
with the tests put in, step by step and in the same order, and each comes with an
equation which says that it gives what the plain one gives. The equations carry no
more assumptions than they need; in particular a search in a text that is short
enough is safe whatever it is asked for, so that nothing has to be known about where
a rule looks for its tokens.
-/

namespace Retrace

/-- Why a machine stops. -/
inductive Trap where
  /-- A sum or a length does not fit into an offset. -/
  | overflow
  /-- More is taken away than there is. -/
  | underflow
  /-- A span would start behind its end. -/
  | inverted
  /-- A list has no such entry, or no such stretch. -/
  | outOfRange
deriving DecidableEq

/-- A computation that stops at the first trap. -/
abbrev Checked := Except Trap

/-- A checked computation that may find nothing. -/
abbrev Lookup := OptionT Checked

namespace Checked

@[simp]
theorem ok_bind {α β : Type} (a : α) (f : α → Checked β) : (Except.ok a >>= f) = f a := rfl

@[simp]
theorem pure_eq_ok {α : Type} (a : α) : (pure a : Checked α) = .ok a := rfl

@[simp]
theorem ite_ok {α : Type} {c : Prop} [Decidable c] (a b : α) :
    (if c then Except.ok a else .ok b : Checked α) = .ok (if c then a else b) := by
  by_cases hc : c <;> simp [hc]

/-! ## Offsets and spans -/

/-- A number that has to fit into an offset. -/
def number (n : Nat) : Checked Nat := if n < offsetBound then .ok n else .error .overflow

/-- A sum of two offsets. -/
def add (a b : Nat) : Checked Nat := number (a + b)

/-- A difference of two numbers. -/
def sub (a b : Nat) : Checked Nat := if b ≤ a then .ok (a - b) else .error .underflow

/-- The span between two offsets. -/
def span (start stop : Nat) : Checked Span :=
  if h : start ≤ stop then .ok ⟨start, stop, h⟩ else .error .inverted

/-- The smallest span that encloses both. -/
def cover (a b : Span) : Checked Span := span (min a.start b.start) (max a.stop b.stop)

theorem number_eq {n : Nat} (h : n < offsetBound) : number n = .ok n := if_pos h

theorem add_eq {a b : Nat} (h : a + b < offsetBound) : add a b = .ok (a + b) := number_eq h

theorem sub_eq {a b : Nat} (h : b ≤ a) : sub a b = .ok (a - b) := if_pos h

theorem span_eq {start stop : Nat} (h : start ≤ stop) : span start stop = .ok ⟨start, stop, h⟩ :=
  dif_pos h

@[simp]
theorem length_eq (s : Span) : sub s.stop s.start = .ok s.length := sub_eq s.start_le_stop

@[simp]
theorem cover_eq (a b : Span) : cover a b = .ok (a.cover b) := span_eq (a.cover b).start_le_stop

/-! ## Lists -/

/-- An entry of a list. -/
def entry {α : Type} (xs : List α) (i : Nat) : Checked α :=
  match xs[i]? with
  | some x => .ok x
  | none => .error .outOfRange

/-- A list with a new entry at a place that is not past its end. -/
def insertAt {α : Type} (xs : List α) (i : Nat) (x : α) : Checked (List α) :=
  if i ≤ xs.length then .ok (xs.insertIdx i x) else .error .outOfRange

/-- What the entries of a list give, one after the other. -/
def collect {α β : Type} (xs : List α) (f : α → Checked (List β)) : Checked (List β) := do
  return (← xs.mapM f).flatten

/-- What two computations give, one after the other. -/
instance {α : Type} : Append (Checked (List α)) where
  append x y := do return (← x) ++ (← y)

theorem entry_eq {α : Type} {xs : List α} {i : Nat} {x : α} (h : xs[i]? = some x) :
    entry xs i = .ok x := by
  simp only [entry, h]

theorem insertAt_eq {α : Type} {xs : List α} {i : Nat} (h : i ≤ xs.length) (x : α) :
    insertAt xs i x = .ok (xs.insertIdx i x) :=
  if_pos h

@[simp]
theorem ok_append {α : Type} (xs ys : List α) :
    (Except.ok xs ++ Except.ok ys : Checked (List α)) = .ok (xs ++ ys) := rfl

theorem mapM_eq {α β : Type} {xs : List α} {f : α → Checked β} {g : α → β}
    (h : ∀ x ∈ xs, f x = .ok (g x)) : xs.mapM f = .ok (xs.map g) := by
  induction xs with
  | nil => rfl
  | cons x xs ih =>
    obtain ⟨hHead, hTail⟩ := List.forall_mem_cons.mp h
    rw [List.mapM_cons, hHead, ih hTail]
    rfl

theorem foldlM_eq {α β : Type} {xs : List α} {f : β → α → Checked β} {g : β → α → β}
    (h : ∀ b, ∀ x ∈ xs, f b x = .ok (g b x)) (b : β) : xs.foldlM f b = .ok (xs.foldl g b) := by
  induction xs generalizing b with
  | nil => rfl
  | cons x xs ih =>
    rw [List.foldlM_cons, h b x List.mem_cons_self]
    exact ih (fun b y hy => h b y (List.mem_cons_of_mem x hy)) (g b x)

theorem collect_eq {α β : Type} {xs : List α} {f : α → Checked (List β)} {g : α → List β}
    (h : ∀ x ∈ xs, f x = .ok (g x)) : collect xs f = .ok (xs.flatMap g) := by
  rw [collect, mapM_eq h]
  rfl

end Checked

namespace Lookup

/-! ## Look-ups -/

/-- The result of a look-up that computes nothing. -/
def found {α : Type} (o : Option α) : Lookup α := OptionT.mk (.ok o)

/-- A look-up that always finds something, unless it stops. -/
def known {α : Type} (x : Checked α) : Lookup α := OptionT.lift x

/-- The first of two look-ups that finds something. Both are made. -/
def either {α : Type} (x y : Lookup α) : Lookup α :=
  OptionT.mk do return (← x.run).or (← y.run)

@[simp]
theorem run_found {α : Type} (o : Option α) : (found o).run = .ok o := rfl

@[simp]
theorem pure_eq_found {α : Type} (a : α) : (pure a : Lookup α) = found (some a) := rfl

@[simp]
theorem known_ok {α : Type} (a : α) : known (.ok a) = found (some a) := rfl

@[simp]
theorem either_found {α : Type} (x y : Option α) : either (found x) (found y) = found (x.or y) :=
  rfl

@[simp]
theorem found_some_bind {α β : Type} (a : α) (f : α → Lookup β) :
    (found (some a) >>= f) = f a := rfl

/-- Look-ups one after the other, of which the second is safe wherever the first one
leads. -/
theorem found_bind {α β : Type} {o : Option α} {f : α → Lookup β} {g : α → Option β}
    (h : ∀ a, o = some a → f a = found (g a)) : (found o >>= f) = found (o.bind g) := by
  cases o with
  | none => rfl
  | some a => exact h a rfl

@[simp]
theorem found_bind_found {α β : Type} (o : Option α) (g : α → Option β) :
    (found o >>= fun a => found (g a)) = found (o.bind g) :=
  found_bind fun _ _ => rfl

/-- An offset some way behind one that is looked up. -/
def plus (x : Lookup Nat) (n : Nat) : Lookup Nat := do
  known (Checked.add (← x) n)

theorem plus_found {o : Option Nat} {n : Nat} (h : ∀ a, o = some a → a + n < offsetBound) :
    plus (found o) n = found (o.map (· + n)) := by
  cases o with
  | none => rfl
  | some a =>
    simp only [plus, found_some_bind, Checked.add_eq (h a rfl), known_ok, Option.map_some]

end Lookup

end Retrace
