import Mathlib.Data.List.Nodup
import Mathlib.Logic.Function.Basic
import Mathlib.Tactic.SplitIfs

/-!
# Hash tables with chaining

A table is a list of entries for each bucket.  Every entry has a key, and belongs into the bucket that
the hash function gives for its key.

* `Ok key hash table`: every entry is in its bucket, and no two entries of a bucket have the same key.
* `Ok.unique`: hence no two entries of the whole table have the same key.
* `Ok.find?_eq_some_iff`, `Ok.find?_eq_none_iff`: a lookup in one bucket finds what the table has.
* `Ok.push`, `Ok.erase`, `Ok.congr`: the updates that keep this.
-/

namespace Buckets

variable {α κ : Type} {key : α → κ} {hash : κ → ℕ} {table : ℕ → List α}

/-- Every entry is in its bucket, and the keys of a bucket are different. -/
structure Ok (key : α → κ) (hash : κ → ℕ) (table : ℕ → List α) : Prop where
  placed : ∀ k, ∀ x ∈ table k, hash (key x) = k
  nodup : ∀ k, ((table k).map key).Nodup

/-- No two entries of the table have the same key. -/
theorem Ok.unique (h : Ok key hash table) {j k : ℕ} {x y : α} (hx : x ∈ table j) (hy : y ∈ table k)
    (hkey : key x = key y) : x = y := by
  have hj : hash (key x) = j := h.placed j x hx
  have hk : hash (key y) = k := h.placed k y hy
  have hjk : j = k := by rw [← hj, ← hk, hkey]
  subst hjk
  exact List.inj_on_of_nodup_map (h.nodup j) hx hy hkey

/-- The empty table. -/
theorem ok_empty (key : α → κ) (hash : κ → ℕ) : Ok key hash fun _ => [] where
  placed := fun _ _ hx => absurd hx List.not_mem_nil
  nodup := fun _ => List.nodup_nil

section Find

variable [DecidableEq κ] {p : α → Bool} {q : κ}

/-- A lookup finds the entry with the key, wherever it is. -/
theorem Ok.find?_eq_some_iff (h : Ok key hash table)
    (hp : ∀ x ∈ table (hash q), p x = decide (key x = q)) {x : α} :
    (table (hash q)).find? p = some x ↔ (∃ k, x ∈ table k) ∧ key x = q := by
  constructor
  · intro hfind
    have hmem := List.mem_of_find?_eq_some hfind
    have htrue := List.find?_some hfind
    rw [hp x hmem, decide_eq_true_eq] at htrue
    exact ⟨⟨_, hmem⟩, htrue⟩
  · rintro ⟨⟨k, hmem⟩, rfl⟩
    rw [← h.placed k x hmem] at hmem
    cases hfind : (table (hash (key x))).find? p with
    | none =>
      have hnot := List.find?_eq_none.mp hfind x hmem
      rw [hp x hmem, decide_eq_true_eq] at hnot
      exact absurd rfl hnot
    | some y =>
      have hmem' := List.mem_of_find?_eq_some hfind
      have htrue := List.find?_some hfind
      rw [hp y hmem', decide_eq_true_eq] at htrue
      rw [h.unique hmem' hmem htrue]

/-- A lookup fails when no entry has the key. -/
theorem Ok.find?_eq_none_iff (h : Ok key hash table)
    (hp : ∀ x ∈ table (hash q), p x = decide (key x = q)) :
    (table (hash q)).find? p = none ↔ ∀ k, ∀ x ∈ table k, key x ≠ q := by
  constructor
  · intro hnone k x hx hkey
    have hsome := (h.find?_eq_some_iff hp).mpr ⟨⟨k, hx⟩, hkey⟩
    rw [hnone] at hsome
    exact Option.some_ne_none x hsome.symm
  · intro hnot
    rw [List.find?_eq_none]
    intro x hx
    rw [hp x hx, decide_eq_true_eq]
    exact hnot _ x hx

end Find

/-- An entry with a new key at the end of its bucket. -/
theorem Ok.push (h : Ok key hash table) {x : α} (hnew : ∀ k, ∀ y ∈ table k, key y ≠ key x) :
    Ok key hash (Function.update table (hash (key x)) (table (hash (key x)) ++ [x])) where
  placed := by
    intro k y hy
    rw [Function.update_apply] at hy
    split_ifs at hy with hk
    · subst hk
      rcases List.mem_append.mp hy with hy | hy
      · exact h.placed _ y hy
      · rw [List.mem_singleton.mp hy]
    · exact h.placed k y hy
  nodup := by
    intro k
    rw [Function.update_apply]
    split_ifs with hk
    · rw [List.map_append, List.map_singleton]
      refine List.Nodup.append (h.nodup _) (List.nodup_singleton _) ?_
      intro z hz hz'
      obtain ⟨y, hy, rfl⟩ := List.mem_map.mp hz
      exact hnew _ y hy (List.mem_singleton.mp hz')
    · exact h.nodup k

/-- An entry less. -/
theorem Ok.erase [DecidableEq α] (h : Ok key hash table) (k : ℕ) (x : α) :
    Ok key hash (Function.update table k ((table k).erase x)) where
  placed := by
    intro j y hy
    rw [Function.update_apply] at hy
    split_ifs at hy with hj
    · subst hj
      exact h.placed _ y (List.mem_of_mem_erase hy)
    · exact h.placed j y hy
  nodup := by
    intro j
    rw [Function.update_apply]
    split_ifs with hj
    · subst hj
      exact (h.nodup _).sublist (List.erase_sublist.map key)
    · exact h.nodup j

/-- The entries keep their keys. -/
theorem Ok.congr (h : Ok key hash table) {key' : α → κ}
    (hkey : ∀ k, ∀ x ∈ table k, key' x = key x) : Ok key' hash table where
  placed := by
    intro k x hx
    rw [hkey k x hx]
    exact h.placed k x hx
  nodup := by
    intro k
    rw [List.map_congr_left (hkey k)]
    exact h.nodup k

end Buckets
