import H2ClientProxy.EpBuffer
import Mathlib.Data.List.Basic

/-!
# What a series of reads returns: `ep_buffer_read`

A read that ends inside a buffer adds to `len_sent` what is left of `length` after it has been added
to `cpy_len`, which is nothing.  The next read returns the same bytes again.

* `epBufferRead_eq`: a read returns the first `min length available` bytes, and takes out of the list
  exactly the buffers that it has read to their end.
* `readsOnce_iff`: a series of reads returns every byte once iff each of them ends at the end of a
  buffer or empties the list.
-/

namespace H2ClientProxy

open SendQueue

variable {q : List (Buf UInt8)} {length : ℕ} {lengths : List ℕ}

/-- What calls of `ep_buffer_read` with the lengths `lengths` return together, and the list they
leave. -/
def readAll : List ℕ → List (Buf UInt8) → Bytes × List (Buf UInt8)
  | [], q => ([], q)
  | length :: lengths, q =>
    let out := epBufferRead q length
    let rest := readAll lengths out.list
    (out.copied ++ rest.1, rest.2)

/-- Each of the calls returns as many bytes as it was asked for, or all there are. -/
def ReturnsMin : List ℕ → List (Buf UInt8) → Prop
  | [], _ => True
  | length :: lengths, q =>
    (epBufferRead q length).cpyLen = min length (unsent q).length ∧
      ReturnsMin lengths (epBufferRead q length).list

/-- The calls return every byte once: what they return and what is left are the stream, and they empty
the list as soon as they have asked for all of it. -/
structure ReadsOnce (lengths : List ℕ) (q : List (Buf UInt8)) : Prop where
  stream : (readAll lengths q).1 ++ unsent (readAll lengths q).2 = unsent q
  returns : ReturnsMin lengths q
  drains : (unsent q).length ≤ lengths.sum → unsent (readAll lengths q).2 = []

/-- `n` bytes from the beginning of the stream are all of it, or end where a buffer ends. -/
def Boundary (q : List (Buf UInt8)) (n : ℕ) : Prop :=
  (unsent q).length ≤ n ∨ ∃ k, (unsent (q.take k)).length = n

/-- Each of the calls ends at such a place. -/
def EndsAtBoundaries (lengths : List ℕ) (q : List (Buf UInt8)) : Prop :=
  ∀ ls, ls <+: lengths → Boundary q ls.sum

/-! ### One read -/

/-- How many buffers at the beginning of the list are read to their end. -/
def wholeBufs : List (Buf UInt8) → ℕ → ℕ
  | [], _ => 0
  | pos :: n, length =>
    if pos.rest.length ≤ length then wholeBufs n (length - pos.rest.length) + 1 else 0

theorem readLoop_eq (q : List (Buf UInt8)) {cpyLen : ℕ} (h : cpyLen ≤ length) :
    readLoop length q cpyLen =
      ⟨(unsent q).take (length - cpyLen), q.drop (wholeBufs q (length - cpyLen)),
        cpyLen + min (length - cpyLen) (unsent q).length⟩ := by
  induction q generalizing cpyLen with
  | nil => simp [readLoop, wholeBufs]
  | cons pos n ih =>
    rw [readLoop, wholeBufs, unsent_cons, List.length_append, Buf.length_rest]
    dsimp only
    split_ifs with hwhole
    · have hle : cpyLen + (pos.data.length - pos.sent) ≤ length := by omega
      have hsub : length - (cpyLen + (pos.data.length - pos.sent)) =
          length - cpyLen - (pos.data.length - pos.sent) := by omega
      have hrest : pos.rest.take (length - cpyLen) = pos.rest :=
        List.take_of_length_le (by rw [Buf.length_rest]; exact hwhole)
      rw [ih hle, hsub, List.drop_succ_cons, List.take_append, hrest, Buf.length_rest]
      have hret : cpyLen + (pos.data.length - pos.sent) +
          min (length - cpyLen - (pos.data.length - pos.sent)) (unsent n).length =
          cpyLen + min (length - cpyLen) (pos.data.length - pos.sent + (unsent n).length) := by
        omega
      rw [hret]
    · -- nothing is left of `length` when `len_sent` is updated
      have hzero : length - (cpyLen + (length - cpyLen)) = 0 := by omega
      have hsame : pos.advance 0 = pos := by
        obtain ⟨data, sent, hsent⟩ := pos
        simp only [Buf.advance, Nat.add_zero, min_eq_left hsent]
      rw [hzero, hsame, List.drop_zero,
        List.take_append_of_le_length (by rw [Buf.length_rest]; omega)]
      have hret : cpyLen + (length - cpyLen) =
          cpyLen + min (length - cpyLen) (pos.data.length - pos.sent + (unsent n).length) := by
        omega
      rw [← hret]

/-- **A read.** -/
theorem epBufferRead_eq (q : List (Buf UInt8)) (length : ℕ) : epBufferRead q length =
    ⟨(unsent q).take length, q.drop (wholeBufs q length), min length (unsent q).length⟩ := by
  rw [epBufferRead, readLoop_eq q (Nat.zero_le _), Nat.sub_zero, Nat.zero_add]

theorem returnsMin (lengths : List ℕ) (q : List (Buf UInt8)) : ReturnsMin lengths q := by
  induction lengths generalizing q with
  | nil => trivial
  | cons length lengths ih =>
    refine ⟨?_, ih _⟩
    rw [epBufferRead_eq]

/-- The buffers that are read to their end hold at most as much as was asked for. -/
theorem length_wholeBufs_le (q : List (Buf UInt8)) (length : ℕ) :
    (unsent (q.take (wholeBufs q length))).length ≤ length := by
  induction q generalizing length with
  | nil => simp
  | cons pos n ih =>
    rw [wholeBufs]
    split_ifs with hwhole
    · have h := ih (length - pos.rest.length)
      rw [List.take_succ_cons, unsent_cons, List.length_append]
      omega
    · simp

/-- Up to a boundary the buffers are read to their end. -/
theorem length_wholeBufs (q : List (Buf UInt8)) (h : Boundary q length) :
    (unsent (q.take (wholeBufs q length))).length = min length (unsent q).length := by
  induction q generalizing length with
  | nil => simp
  | cons pos n ih =>
    rw [wholeBufs]
    split_ifs with hwhole
    · have hn : Boundary n (length - pos.rest.length) := by
        obtain hall | ⟨k, hk⟩ := h
        · rw [unsent_cons, List.length_append] at hall
          exact Or.inl (by omega)
        · cases k with
          | zero =>
            rw [List.take_zero, unsent_nil, List.length_nil] at hk
            exact Or.inr ⟨0, by simp [← hk]⟩
          | succ k =>
            rw [List.take_succ_cons, unsent_cons, List.length_append] at hk
            exact Or.inr ⟨k, by omega⟩
      have h1 := ih hn
      rw [List.take_succ_cons, unsent_cons, unsent_cons, List.length_append, List.length_append]
      omega
    · -- a boundary inside the first buffer is its beginning
      obtain hall | ⟨k, hk⟩ := h
      · rw [unsent_cons, List.length_append] at hall
        omega
      · cases k with
        | zero =>
          rw [List.take_zero, unsent_nil, List.length_nil] at hk
          simp [← hk]
        | succ k =>
          rw [List.take_succ_cons, unsent_cons, List.length_append] at hk
          omega

/-- A read that ends at a boundary takes out what it returns. -/
theorem unsent_read (h : Boundary q length) :
    unsent (epBufferRead q length).list = (unsent q).drop length := by
  rw [epBufferRead_eq]
  show unsent (q.drop (wholeBufs q length)) = _
  rw [← drop_unsent, length_wholeBufs q h]
  obtain hle | hle := le_total length (unsent q).length
  · rw [min_eq_left hle]
  · rw [min_eq_right hle, List.drop_length, List.drop_eq_nil_of_le hle]

/-- A read never takes out more than it returns. -/
theorem length_le_read (q : List (Buf UInt8)) (length : ℕ) : (unsent q).length ≤
    (epBufferRead q length).copied.length + (unsent (epBufferRead q length).list).length := by
  have hle := length_wholeBufs_le q length
  have hsplit := congrArg List.length (unsent_take_drop q (wholeBufs q length))
  rw [List.length_append] at hsplit
  rw [epBufferRead_eq]
  show _ ≤ ((unsent q).take length).length + (unsent (q.drop (wholeBufs q length))).length
  rw [List.length_take]
  omega

/-- One that ends inside a buffer takes out less. -/
theorem length_lt_read (h : ¬ Boundary q length) : (unsent q).length <
    (epBufferRead q length).copied.length + (unsent (epBufferRead q length).list).length := by
  rw [Boundary, not_or, not_le, not_exists] at h
  have hle := length_wholeBufs_le q length
  have hne := h.2 (wholeBufs q length)
  have hsplit := congrArg List.length (unsent_take_drop q (wholeBufs q length))
  rw [List.length_append] at hsplit
  rw [epBufferRead_eq]
  show _ < ((unsent q).take length).length + (unsent (q.drop (wholeBufs q length))).length
  rw [List.length_take]
  omega

/-! ### A series of reads -/

theorem length_le_readAll (lengths : List ℕ) (q : List (Buf UInt8)) : (unsent q).length ≤
    (readAll lengths q).1.length + (unsent (readAll lengths q).2).length := by
  induction lengths generalizing q with
  | nil => simp [readAll]
  | cons length lengths ih =>
    have h1 := length_le_read q length
    have h2 := ih (epBufferRead q length).list
    rw [readAll]
    dsimp only
    rw [List.length_append]
    omega

/-- The boundaries of what a read leaves, seen from the beginning. -/
theorem boundary_add (h : Boundary q length) (m : ℕ) :
    Boundary (epBufferRead q length).list m ↔ Boundary q (length + m) := by
  have hlen := congrArg List.length (unsent_read h)
  rw [List.length_drop] at hlen
  obtain hall | hlt := Nat.lt_or_ge length (unsent q).length |>.symm
  · exact iff_of_true (Or.inl (by omega)) (Or.inl (by omega))
  · -- the read ended behind the first `k` buffers
    have hwhole := length_wholeBufs q h
    rw [min_eq_left hlt.le] at hwhole
    have hlist : (epBufferRead q length).list = q.drop (wholeBufs q length) := by
      rw [epBufferRead_eq]
    have hfirst : ∀ j, (unsent (q.take (wholeBufs q length + j))).length =
        length + (unsent ((epBufferRead q length).list.take j)).length := by
      intro j
      rw [List.take_add, unsent_append, List.length_append, hwhole, hlist]
    unfold Boundary
    constructor
    · rintro (hle | ⟨k, hk⟩)
      · exact Or.inl (by omega)
      · exact Or.inr ⟨wholeBufs q length + k, by rw [hfirst, hk]⟩
    · rintro (hle | ⟨k, hk⟩)
      · exact Or.inl (by omega)
      · by_cases hkl : wholeBufs q length ≤ k
        · obtain ⟨j, rfl⟩ := Nat.exists_eq_add_of_le hkl
          rw [hfirst] at hk
          exact Or.inr ⟨j, by omega⟩
        · -- an earlier boundary is not behind the read
          have hmono : (unsent (q.take k)).length ≤ (unsent (q.take (wholeBufs q length))).length := by
            obtain ⟨j, hj⟩ := Nat.exists_eq_add_of_le (Nat.le_of_not_le hkl)
            rw [hj, List.take_add, unsent_append, List.length_append]
            exact Nat.le_add_right _ _
          exact Or.inr ⟨0, by rw [List.take_zero, unsent_nil, List.length_nil]; omega⟩

theorem endsAtBoundaries_cons : EndsAtBoundaries (length :: lengths) q ↔
    Boundary q length ∧ EndsAtBoundaries lengths (epBufferRead q length).list := by
  constructor
  · intro h
    have h1 : Boundary q length := by
      have h0 := h [length] (List.prefix_append [length] lengths)
      rwa [List.sum_singleton] at h0
    refine ⟨h1, fun ls hls => (boundary_add h1 _).mpr ?_⟩
    have h2 := h (length :: ls) ((List.prefix_cons_inj length).mpr hls)
    rwa [List.sum_cons] at h2
  · rintro ⟨h1, h2⟩ ls hls
    cases ls with
    | nil => exact Or.inr ⟨0, by simp⟩
    | cons l ls =>
      obtain ⟨rfl, hls'⟩ := List.cons_prefix_cons.mp hls
      rw [List.sum_cons]
      exact (boundary_add h1 _).mp (h2 ls hls')

theorem endsAtBoundaries_nil (q : List (Buf UInt8)) : EndsAtBoundaries [] q := by
  intro ls hls
  rw [List.prefix_nil.mp hls]
  exact Or.inr ⟨0, by simp⟩

/-- Reads that end at boundaries split the stream. -/
theorem readAll_eq (h : EndsAtBoundaries lengths q) :
    (readAll lengths q).1 = (unsent q).take lengths.sum ∧
      unsent (readAll lengths q).2 = (unsent q).drop lengths.sum := by
  induction lengths generalizing q with
  | nil => simp [readAll]
  | cons length lengths ih =>
    obtain ⟨h1, h2⟩ := endsAtBoundaries_cons.mp h
    obtain ⟨ih1, ih2⟩ := ih h2
    rw [unsent_read h1] at ih1 ih2
    rw [readAll, List.sum_cons]
    dsimp only
    constructor
    · rw [ih1, List.take_add, epBufferRead_eq]
    · rw [ih2, List.drop_drop]

/-- **A series of reads.**  It returns every byte once iff each of its reads ends at the end of a buffer
or empties the list. -/
theorem readsOnce_iff (lengths : List ℕ) (q : List (Buf UInt8)) :
    ReadsOnce lengths q ↔ EndsAtBoundaries lengths q := by
  constructor
  · intro h
    have hlen := congrArg List.length h.stream
    rw [List.length_append] at hlen
    clear h
    induction lengths generalizing q with
    | nil => exact endsAtBoundaries_nil q
    | cons length lengths ih =>
      have hrest := length_le_readAll lengths (epBufferRead q length).list
      have hread := length_le_read q length
      rw [readAll] at hlen
      dsimp only at hlen
      rw [List.length_append] at hlen
      refine endsAtBoundaries_cons.mpr ⟨?_, ih _ (by omega)⟩
      by_contra hno
      have hlt := length_lt_read hno
      omega
  · intro h
    obtain ⟨h1, h2⟩ := readAll_eq h
    constructor
    · rw [h1, h2, List.take_append_drop]
    · exact returnsMin lengths q
    · intro hle
      rw [h2, List.drop_eq_nil_of_le hle]

/-- Two reads of one byte each from a buffer of two bytes return the first byte twice. -/
theorem not_readsOnce : ¬ ∀ (lengths : List ℕ) (q : List (Buf UInt8)),
    (∀ length ∈ lengths, 0 < length) → (∀ pos ∈ q, pos.sent < pos.data.length) →
    ReadsOnce lengths q := by
  intro h
  have h1 := h [1, 1] [Buf.fresh (bytes "ab")] (by decide) (by decide)
  have h2 : (readAll [1, 1] [Buf.fresh (bytes "ab")]).1 ++
      unsent (readAll [1, 1] [Buf.fresh (bytes "ab")]).2 ≠ unsent [Buf.fresh (bytes "ab")] := by
    decide
  exact h2 h1.stream

end H2ClientProxy
