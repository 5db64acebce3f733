import Mathlib.Data.List.Basic
import Mathlib.Order.Lattice
import Mathlib.Algebra.BigOperators.Group.List.Basic
import Mathlib.Tactic.Simps.Basic

/-!
# Queues of partly sent buffers

A buffer is a block of items of which the first `sent` have already been handed over.  A queue of
such buffers holds a stream: the items of all its buffers that are still to be sent, in order
(`unsent`).  The lemmas say what an advance of one buffer and an addition at the end do to the
stream and to its length.
-/

namespace SendQueue

/-- A block of items, the first `sent` of which have been handed over. -/
structure Buf (α : Type) where
  data : List α
  sent : ℕ
  sent_le : sent ≤ data.length
  deriving DecidableEq

variable {α : Type}

namespace Buf

/-- A buffer none of whose items has been sent. -/
@[simps]
def fresh (data : List α) : Buf α := ⟨data, 0, Nat.zero_le _⟩

/-- The items still to be sent. -/
def rest (b : Buf α) : List α := b.data.drop b.sent

/-- `n` more items have been sent; never more than there are. -/
@[simps]
def advance (b : Buf α) (n : ℕ) : Buf α :=
  ⟨b.data, min (b.sent + n) b.data.length, min_le_right _ _⟩

@[simp]
theorem rest_fresh (data : List α) : (fresh data).rest = data := rfl

theorem length_rest (b : Buf α) : b.rest.length = b.data.length - b.sent := List.length_drop

/-- What is sent and what is left after an advance are what was left before it. -/
theorem take_append_rest_advance (b : Buf α) (n : ℕ) (h : n ≤ b.rest.length) :
    b.rest.take n ++ (b.advance n).rest = b.rest := by
  have hn : b.sent + n ≤ b.data.length := by
    have := b.sent_le
    rw [rest, List.length_drop] at h
    omega
  have hr : (b.advance n).rest = b.rest.drop n := by
    rw [rest, rest, advance_data, advance_sent, min_eq_left hn, List.drop_drop]
  rw [hr, List.take_append_drop]

end Buf

/-- The stream a queue holds: all items still to be sent, in order. -/
def unsent (q : List (Buf α)) : List α := (q.map Buf.rest).flatten

@[simp]
theorem unsent_nil : unsent ([] : List (Buf α)) = [] := rfl

@[simp]
theorem unsent_cons (b : Buf α) (q : List (Buf α)) : unsent (b :: q) = b.rest ++ unsent q := rfl

/-- A fresh buffer at the end of the queue extends the stream. -/
@[simp]
theorem unsent_append_fresh (q : List (Buf α)) (data : List α) :
    unsent (q ++ [Buf.fresh data]) = unsent q ++ data := by
  simp [unsent]

theorem unsent_append (q q' : List (Buf α)) : unsent (q ++ q') = unsent q ++ unsent q' := by
  simp [unsent]

theorem unsent_take_drop (q : List (Buf α)) (k : ℕ) :
    unsent (q.take k) ++ unsent (q.drop k) = unsent q := by
  rw [← unsent_append, List.take_append_drop]

theorem drop_unsent (q : List (Buf α)) (k : ℕ) :
    (unsent q).drop (unsent (q.take k)).length = unsent (q.drop k) := by
  conv_lhs => rw [← unsent_take_drop q k]
  rw [List.drop_append_of_le_length le_rfl, List.drop_length, List.nil_append]

end SendQueue
