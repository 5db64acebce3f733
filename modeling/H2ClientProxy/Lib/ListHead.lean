import Mathlib.Logic.Function.Basic
import Mathlib.Data.List.Basic
import Mathlib.Data.List.Nodup

/-!
# Circular doubly linked lists

The memory of the links is a pair of maps `next` and `prev` from nodes to nodes.  A list is known by
its head, a node like the others: an empty list is a head that points to itself.

* `Ring l head xs`: from `head`, the links of `l` lead through the nodes `xs` and back to `head`, in
  both directions, and all these nodes are different.
* `Ring.addTail`, `Ring.delFirst`: insertion before the head, and deletion of the first node.
* `Ring.rotate`: each node of a ring can be taken for its head.
-/

namespace ListHead

/-- The two links of every node. -/
structure Links (α : Type) where
  next : α → α
  prev : α → α

variable {α : Type}

namespace Links

variable [DecidableEq α]

/-- `a->next = b`. -/
def setNext (l : Links α) (a b : α) : Links α := { l with next := Function.update l.next a b }

/-- `a->prev = b`. -/
def setPrev (l : Links α) (a b : α) : Links α := { l with prev := Function.update l.prev a b }

@[simp]
theorem setNext_next (l : Links α) (a b x : α) :
    (l.setNext a b).next x = if x = a then b else l.next x := Function.update_apply ..

@[simp]
theorem setNext_prev (l : Links α) (a b : α) : (l.setNext a b).prev = l.prev := rfl

@[simp]
theorem setPrev_prev (l : Links α) (a b x : α) :
    (l.setPrev a b).prev x = if x = a then b else l.prev x := Function.update_apply ..

@[simp]
theorem setPrev_next (l : Links α) (a b : α) : (l.setPrev a b).next = l.next := rfl

/-- A node that points to itself. -/
def init (l : Links α) (list : α) : Links α := (l.setNext list list).setPrev list list

/-- `new` is put between `prev` and `next`. -/
def add (l : Links α) (new prev next : α) : Links α :=
  (((l.setPrev next new).setNext new next).setPrev new prev).setNext prev new

/-- `new` is put before `head`. -/
def addTail (l : Links α) (new head : α) : Links α := l.add new (l.prev head) head

/-- The neighbours of `entry` are linked to each other, and its own links are overwritten. -/
def del (l : Links α) (entry poison1 poison2 : α) : Links α :=
  (((l.setPrev (l.next entry) (l.prev entry)).setNext (l.prev entry) (l.next entry)).setNext
    entry poison1).setPrev entry poison2

end Links

/-! ### Chains -/

/-- The links lead from `a` through `xs` to `b`, and back. -/
def Chain (l : Links α) : α → List α → α → Prop
  | a, [], b => l.next a = b ∧ l.prev b = a
  | a, x :: xs, b => l.next a = x ∧ l.prev x = a ∧ Chain l x xs b

variable {l l' : Links α} {a b x : α} {xs : List α}

/-- A chain depends on the `next` of all its nodes but the last, and the `prev` of all but the
first. -/
theorem Chain.congr (h : Chain l a xs b) (hnext : ∀ y ∈ a :: xs, l'.next y = l.next y)
    (hprev : ∀ y ∈ xs ++ [b], l'.prev y = l.prev y) : Chain l' a xs b := by
  induction xs generalizing a with
  | nil =>
    refine ⟨?_, ?_⟩
    · rw [hnext a List.mem_cons_self, h.1]
    · rw [hprev b (List.mem_singleton_self b), h.2]
  | cons x xs ih =>
    refine ⟨?_, ?_, ?_⟩
    · rw [hnext a List.mem_cons_self, h.1]
    · rw [hprev x List.mem_cons_self, h.2.1]
    · exact ih h.2.2 (fun y hy => hnext y (List.mem_cons_of_mem _ hy))
        fun y hy => hprev y (List.mem_cons_of_mem _ hy)

/-- Two chains that meet in a node are one chain. -/
theorem Chain.append {ys : List α} (h : Chain l a xs x) (h' : Chain l x ys b) :
    Chain l a (xs ++ x :: ys) b := by
  induction xs generalizing a with
  | nil => exact ⟨h.1, h.2, h'⟩
  | cons y xs ih => exact ⟨h.1, h.2.1, ih h.2.2⟩

/-- The node after the beginning of a chain: its first node, or its end. -/
theorem Chain.next_eq (h : Chain l a xs b) : l.next a = xs.headD b := by
  cases xs with
  | nil => exact h.1
  | cons x xs => exact h.1

/-- The node before the end of a chain is one of its nodes. -/
theorem Chain.prev_mem (h : Chain l a xs b) : l.prev b ∈ a :: xs := by
  induction xs generalizing a with
  | nil =>
    rw [h.2]
    exact List.mem_cons_self
  | cons x xs ih => exact List.mem_cons_of_mem _ (ih h.2.2)

/-! ### Rings -/

variable {head : α}

/-- The list with this head: the nodes `xs`, in order. -/
structure Ring (l : Links α) (head : α) (xs : List α) : Prop where
  chain : Chain l head xs head
  nodup : (head :: xs).Nodup

/-- The first node of a list can be taken for the head: the old head is then the last node. -/
theorem Ring.rotate (h : Ring l head (x :: xs)) : Ring l x (xs ++ [head]) := by
  constructor
  · exact h.chain.2.2.append ⟨h.chain.1, h.chain.2.1⟩
  · rw [← List.cons_append]
    have hnd : ([head] ++ x :: xs).Nodup := h.nodup
    exact List.nodup_append_comm.1 hnd

/-! ### The operations -/

variable [DecidableEq α]

theorem ring_init (l : Links α) (head : α) : Ring (l.init head) head [] := by
  refine ⟨?_, List.nodup_singleton head⟩
  constructor <;> simp [Links.init]

/-- A new node in front of the end of a chain takes the place of the end. -/
theorem Chain.addTail {new : α} (h : Chain l a xs b) (hnd : (a :: xs).Nodup) (hb : b ∉ xs)
    (hnew : new ∉ a :: xs) : Chain (l.addTail new b) a xs new := by
  induction xs generalizing a with
  | nil =>
    have hprev : l.prev b = a := h.2
    constructor
    · simp [Links.addTail, Links.add, hprev]
    · simp [Links.addTail, Links.add, hprev]
  | cons x xs ih =>
    have hmem : l.prev b ∈ x :: xs := h.2.2.prev_mem
    have ha : a ≠ l.prev b := by
      intro he
      rw [← he] at hmem
      exact (List.nodup_cons.1 hnd).1 hmem
    have hanew : a ≠ new := fun he => hnew (he ▸ List.mem_cons_self)
    have hxnew : x ≠ new := fun he => hnew (he ▸ List.mem_cons_of_mem _ List.mem_cons_self)
    have hxb : x ≠ b := fun he => hb (he ▸ List.mem_cons_self)
    refine ⟨?_, ?_, ?_⟩
    · simp [Links.addTail, Links.add, ha, hanew, h.1]
    · simp [Links.addTail, Links.add, hxnew, hxb, h.2.1]
    · exact ih h.2.2 (List.nodup_cons.1 hnd).2 (fun hm => hb (List.mem_cons_of_mem _ hm))
        fun hm => hnew (List.mem_cons_of_mem _ hm)

/-- Insertion before the head is insertion at the end. -/
theorem Ring.addTail {new : α} (h : Ring l head xs) (hnew : new ∉ head :: xs) :
    Ring (l.addTail new head) head (xs ++ [new]) := by
  have hhead : head ≠ new := fun he => hnew (he ▸ List.mem_cons_self)
  have hprev : l.prev head ≠ new := fun he => hnew (he ▸ h.chain.prev_mem)
  constructor
  · apply (h.chain.addTail h.nodup (List.nodup_cons.1 h.nodup).1 hnew).append
    constructor
    · simp [Links.addTail, Links.add, hprev.symm]
    · simp [Links.addTail, Links.add, hhead]
  · rw [← List.cons_append, List.nodup_append]
    refine ⟨h.nodup, List.nodup_singleton new, ?_⟩
    intro y hy z hz he
    rw [List.mem_singleton.1 hz] at he
    exact hnew (he ▸ hy)

/-- Deletion of the first node. -/
theorem Ring.delFirst (h : Ring l head (x :: xs)) (poison1 poison2 : α) :
    Ring (l.del x poison1 poison2) head xs := by
  have hnd := h.nodup
  obtain ⟨hnext, hprev, hchain⟩ := h.chain
  simp only [List.nodup_cons, List.mem_cons, not_or] at hnd
  obtain ⟨⟨hhx, hhead⟩, hx, hxs⟩ := hnd
  refine ⟨?_, List.nodup_cons.2 ⟨hhead, hxs⟩⟩
  cases xs with
  | nil =>
    have hxh : l.next x = head := hchain.1
    constructor <;> simp [Links.del, hprev, hxh, hhx]
  | cons y ys =>
    have hxy : l.next x = y := hchain.1
    simp only [List.mem_cons, not_or, List.nodup_cons] at hhead hx hxs
    have hyx : y ≠ x := fun he => hx.1 he.symm
    refine ⟨?_, ?_, ?_⟩
    · simp [Links.del, hprev, hxy, hhx]
    · simp [Links.del, hprev, hxy, hyx]
    · -- the rest of the list is not touched
      apply hchain.2.2.congr
      · intro z hz
        have hzx : z ≠ x := by
          rintro rfl
          obtain he | hz := List.mem_cons.1 hz
          · exact hx.1 he
          · exact hx.2 hz
        have hzh : z ≠ head := by
          rintro rfl
          obtain he | hz := List.mem_cons.1 hz
          · exact hhead.1 he
          · exact hhead.2 hz
        simp [Links.del, hprev, hzx, hzh]
      · intro z hz
        have hzy : z ≠ y := by
          rintro rfl
          obtain hz | hz := List.mem_append.1 hz
          · exact hxs.1 hz
          · exact hhead.1 (List.mem_singleton.1 hz).symm
        have hzx : z ≠ x := by
          rintro rfl
          obtain hz | hz := List.mem_append.1 hz
          · exact hx.2 hz
          · exact hhx (List.mem_singleton.1 hz).symm
        simp [Links.del, hxy, hzx, hzy]

end ListHead
