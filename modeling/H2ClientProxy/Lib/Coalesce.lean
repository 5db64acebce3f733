import Mathlib.Data.List.Basic

/-!
# Streams of events that can be cut

A producer that gets its input in pieces may report in several events what it reports in one event when
the input comes at once.  `merge a b` is the event that stands for `a` followed by `b`, where there is
one.

* `Mergeable merge`: it does not matter in which order neighbours are merged.
* `coalesce merge l`: the events of `l` with everything merged that can be.
* `coalesce_append_right` and `coalesce_append_left`: what has the same coalesced form has it before and
  behind any further events.
* `forall_coalesce`: what holds of all events holds of the coalesced ones, when it holds of an event that
  was put together from two of them.
* `foldlM_coalesce`: a consumer that does not see where an event was cut does not see the difference
  between a stream and its coalesced form.
-/

namespace Coalesce

variable {α σ : Type}

/-- Merging is associative, and whether an event can be merged with its neighbour does not depend on
what it has been merged with before. -/
structure Mergeable (merge : α → α → Option α) : Prop where
  assoc : ∀ {a b c ab bc}, merge a b = some ab → merge b c = some bc →
    ∃ abc, merge ab c = some abc ∧ merge a bc = some abc
  right : ∀ {a b c ab}, merge a b = some ab → merge b c = none → merge ab c = none

variable (merge : α → α → Option α)

/-- Put an event in front of coalesced events. -/
def push (a : α) : List α → List α
  | [] => [a]
  | b :: l =>
    match merge a b with
    | some ab => ab :: l
    | none => a :: b :: l

/-- Everything is merged that can be. -/
def coalesce (l : List α) : List α := l.foldr (push merge) []

variable {merge} {a b ab : α} {l l' : List α}

theorem push_of_merge (h : merge a b = some ab) : push merge a (b :: l) = ab :: l := by
  rw [push, h]

theorem push_of_none (h : merge a b = none) : push merge a (b :: l) = a :: b :: l := by
  rw [push, h]

/-- Two events that can be merged are pushed as one. -/
theorem push_push (hm : Mergeable merge) (h : merge a b = some ab) (l : List α) :
    push merge a (push merge b l) = push merge ab l := by
  cases l with
  | nil => exact push_of_merge h
  | cons c l =>
    cases hbc : merge b c with
    | some bc =>
      obtain ⟨abc, h1, h2⟩ := hm.assoc h hbc
      rw [push_of_merge hbc, push_of_merge h1, push_of_merge h2]
    | none => rw [push_of_none hbc, push_of_merge h, push_of_none (hm.right h hbc)]

/-! ### Streams that are put together -/

theorem foldr_push (hm : Mergeable merge) (a : α) (l r : List α) :
    (push merge a l).foldr (push merge) r = push merge a (l.foldr (push merge) r) := by
  cases l with
  | nil => rfl
  | cons b l =>
    cases h : merge a b with
    | some ab =>
      rw [push_of_merge h]
      exact (push_push hm h _).symm
    | none =>
      rw [push_of_none h]
      rfl

theorem foldr_coalesce (hm : Mergeable merge) (l r : List α) :
    (coalesce merge l).foldr (push merge) r = l.foldr (push merge) r := by
  induction l with
  | nil => rfl
  | cons a l ih =>
    show (push merge a (coalesce merge l)).foldr (push merge) r = _
    rw [foldr_push hm, ih]
    rfl

theorem coalesce_append (l r : List α) :
    coalesce merge (l ++ r) = l.foldr (push merge) (coalesce merge r) := List.foldr_append

theorem coalesce_append_left (hm : Mergeable merge) (h : coalesce merge l = coalesce merge l')
    (r : List α) : coalesce merge (l ++ r) = coalesce merge (l' ++ r) := by
  rw [coalesce_append, coalesce_append, ← foldr_coalesce hm l, h, foldr_coalesce hm]

theorem coalesce_append_right (h : coalesce merge l = coalesce merge l') (r : List α) :
    coalesce merge (r ++ l) = coalesce merge (r ++ l') := by
  rw [coalesce_append, coalesce_append, h]

/-- An event may be cut anywhere in a stream. -/
theorem coalesce_merge (hm : Mergeable merge) (h : merge a b = some ab) (l r : List α) :
    coalesce merge (l ++ a :: b :: r) = coalesce merge (l ++ ab :: r) := by
  have he : coalesce merge (a :: b :: r) = coalesce merge (ab :: r) := push_push hm h _
  exact coalesce_append_right he l

/-! ### Consumers -/

variable {P : α → Prop}

theorem forall_of_push (hP : ∀ {a b ab}, merge a b = some ab → P ab → P a ∧ P b)
    (h : ∀ x ∈ push merge a l, P x) : ∀ x ∈ a :: l, P x := by
  cases l with
  | nil => exact h
  | cons b l =>
    cases hab : merge a b with
    | none =>
      rw [push_of_none hab] at h
      exact h
    | some ab =>
      rw [push_of_merge hab] at h
      obtain ⟨h1, hl⟩ := List.forall_mem_cons.mp h
      obtain ⟨ha, hb⟩ := hP hab h1
      exact List.forall_mem_cons.mpr ⟨ha, List.forall_mem_cons.mpr ⟨hb, hl⟩⟩

theorem forall_push (hP : ∀ {a b ab}, merge a b = some ab → P a → P b → P ab) (ha : P a)
    (h : ∀ x ∈ l, P x) : ∀ x ∈ push merge a l, P x := by
  cases l with
  | nil => exact List.forall_mem_singleton.mpr ha
  | cons b l =>
    cases hab : merge a b with
    | none =>
      rw [push_of_none hab]
      exact List.forall_mem_cons.mpr ⟨ha, h⟩
    | some ab =>
      rw [push_of_merge hab]
      obtain ⟨hb, hl⟩ := List.forall_mem_cons.mp h
      exact List.forall_mem_cons.mpr ⟨hP hab ha hb, hl⟩

/-- What holds of all events holds of the coalesced ones. -/
theorem forall_coalesce (hP : ∀ {a b ab}, merge a b = some ab → P a → P b → P ab)
    (h : ∀ x ∈ l, P x) : ∀ x ∈ coalesce merge l, P x := by
  induction l with
  | nil => exact h
  | cons a l ih =>
    obtain ⟨ha, hl⟩ := List.forall_mem_cons.mp h
    exact forall_push hP ha (ih hl)

variable {f : σ → α → Option σ}

theorem foldlM_push (hf : ∀ {a b ab}, merge a b = some ab → P ab → ∀ s, f s a >>= (f · b) = f s ab)
    (h : ∀ x ∈ push merge a l, P x) (s : σ) :
    (push merge a l).foldlM f s = (a :: l).foldlM f s := by
  cases l with
  | nil => rfl
  | cons b l =>
    cases hab : merge a b with
    | none => rw [push_of_none hab]
    | some ab =>
      rw [push_of_merge hab] at h ⊢
      rw [List.foldlM_cons, ← hf hab (h ab List.mem_cons_self), bind_assoc]
      rfl

/-- **A consumer that does not see the cuts** makes the same of a stream and of its coalesced form. -/
theorem foldlM_coalesce (hP : ∀ {a b ab}, merge a b = some ab → P ab → P a ∧ P b)
    (hf : ∀ {a b ab}, merge a b = some ab → P ab → ∀ s, f s a >>= (f · b) = f s ab)
    (h : ∀ x ∈ coalesce merge l, P x) (s : σ) : (coalesce merge l).foldlM f s = l.foldlM f s := by
  induction l generalizing s with
  | nil => rfl
  | cons a l ih =>
    obtain ⟨-, hl⟩ := List.forall_mem_cons.mp (forall_of_push hP h)
    have hpush : (push merge a (coalesce merge l)).foldlM f s = (a :: coalesce merge l).foldlM f s :=
      foldlM_push hf h s
    show (push merge a (coalesce merge l)).foldlM f s = _
    rw [hpush, List.foldlM_cons, List.foldlM_cons]
    congr 1
    funext s'
    exact ih hl s'

end Coalesce
