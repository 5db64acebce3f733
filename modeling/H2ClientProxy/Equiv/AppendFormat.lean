import H2ClientProxy.Util
import Mathlib.Data.List.Basic
import Mathlib.Algebra.Order.BigOperators.Group.List
import Mathlib.Algebra.Order.Group.Nat
import Mathlib.Tactic.SplitIfs

/-!
# Appending text after text: `append_format`

Every call of `append_format` is told how many bytes the buffer has, not how many are left, and passes
this number to `strncat` as the number of characters to append.  So nothing bounds the sum over several
calls; and what a call appends went through the `81920` bytes of `tmp_buf`.

* `appendAll_eq`: the calls stay in the buffer iff what `tmp_buf` leaves of their texts fits.
* `appendsOk_iff`: so the buffer is respected and the text is there as long as it fits iff the texts
  together fit after `tmp_buf`, and none is cut by `tmp_buf` while all is still shorter than the buffer.
-/

namespace H2ClientProxy

/-- The calls `append_format(buf, len, …)` for the formatted texts `texts`, on an empty `buf` of `len`
bytes. -/
def appendAll (len : ℕ) (texts : List Bytes) : Option Bytes :=
  texts.foldlM (fun buf text => appendFormat buf len text) []

/-- What `tmp_buf` holds of a formatted text. -/
def formatted (text : Bytes) : Bytes := text.take (4096 * 20 - 1)

/-- After each of the calls the string in `buf` is shorter than `len`, and it is the concatenation of
the texts so far if that fits. -/
def AppendsOk (len : ℕ) (texts : List Bytes) : Prop :=
  ∀ ts, ts <+: texts → ∃ buf, appendAll len ts = some buf ∧ buf.length < len ∧
    (ts.flatten.length < len → buf = ts.flatten)

/-- The texts fit `buf` together after each has passed through `tmp_buf`, and as long as all that came
so far is shorter than `buf`, no text is longer than `tmp_buf` can hold. -/
structure TextsFit (len : ℕ) (texts : List Bytes) : Prop where
  total : (texts.map fun text => min text.length (4096 * 20 - 1)).sum < len
  uncut : ∀ ts text, ts ++ [text] <+: texts → (ts ++ [text]).flatten.length < len →
    text.length ≤ 4096 * 20 - 1

variable {len : ℕ} {texts ts : List Bytes}

theorem length_formatted (text : Bytes) : (formatted text).length = min text.length (4096 * 20 - 1) := by
  rw [formatted, List.length_take, min_comm]

theorem length_flatten_formatted (texts : List Bytes) : (texts.map formatted).flatten.length =
    (texts.map fun text => min text.length (4096 * 20 - 1)).sum := by
  rw [List.length_flatten, List.map_map]
  congr 1
  exact List.map_congr_left fun text _ => length_formatted text

/-- One call, on a string that is in `buf`. -/
theorem appendFormat_formatted (buf text : Bytes) : appendFormat buf len text =
    if (buf ++ formatted text).length < len then some (buf ++ formatted text) else none := by
  unfold appendFormat
  show (if (buf ++ (formatted text).take len).length < len
    then some (buf ++ (formatted text).take len) else none) = _
  by_cases hfit : (formatted text).length ≤ len
  · rw [List.take_of_length_le hfit]
  · -- a text that `strncat` cuts does not fit either way
    have hcut : ¬ (buf ++ (formatted text).take len).length < len := by
      rw [List.length_append, List.length_take]
      omega
    have hall : ¬ (buf ++ formatted text).length < len := by
      rw [List.length_append]
      omega
    rw [if_neg hcut, if_neg hall]

/-- **What a series of calls leaves.** -/
theorem appendAll_eq (texts : List Bytes) (hlen : 0 < len) : appendAll len texts =
    if (texts.map formatted).flatten.length < len then some (texts.map formatted).flatten
    else none := by
  suffices h : ∀ buf : Bytes, buf.length < len →
      texts.foldlM (fun buf text => appendFormat buf len text) buf =
        if (buf ++ (texts.map formatted).flatten).length < len
        then some (buf ++ (texts.map formatted).flatten) else none from h [] hlen
  induction texts with
  | nil =>
    intro buf hbuf
    rw [List.map_nil, List.flatten_nil, List.append_nil, if_pos hbuf]
    rfl
  | cons text texts ih =>
    intro buf hbuf
    rw [List.foldlM_cons, appendFormat_formatted, List.map_cons, List.flatten_cons,
      ← List.append_assoc]
    by_cases hfit : (buf ++ formatted text).length < len
    · rw [if_pos hfit]
      exact ih _ hfit
    · have hlater : ¬ (buf ++ formatted text ++ (texts.map formatted).flatten).length < len := by
        rw [List.length_append]
        omega
      rw [if_neg hfit, if_neg hlater]
      rfl

/-- Texts that are not cut are appended as they are. -/
theorem map_formatted (h : ∀ text ∈ ts, text.length ≤ 4096 * 20 - 1) : ts.map formatted = ts := by
  conv_rhs => rw [← List.map_id ts]
  exact List.map_congr_left fun text htext => List.take_of_length_le (h text htext)

/-- Of less text there is less. -/
theorem length_formatted_le (h : ts <+: texts) :
    (ts.map formatted).flatten.length ≤ (texts.map formatted).flatten.length := by
  obtain ⟨rest, rfl⟩ := h
  rw [List.map_append, List.flatten_append, List.length_append]
  exact Nat.le_add_right _ _

theorem TextsFit.appendsOk (h : TextsFit len texts) : AppendsOk len texts := by
  have hlen : 0 < len := Nat.zero_lt_of_lt h.total
  intro ts hts
  have hfit : (ts.map formatted).flatten.length < len := by
    refine lt_of_le_of_lt (length_formatted_le hts) ?_
    rw [length_flatten_formatted]
    exact h.total
  refine ⟨(ts.map formatted).flatten, ?_, hfit, fun hshort => ?_⟩
  · rw [appendAll_eq ts hlen, if_pos hfit]
  · -- every text of `ts` ended while all was still short
    rw [map_formatted]
    intro text htext
    obtain ⟨before, after, rfl⟩ := List.append_of_mem htext
    have hsplit : before ++ text :: after = (before ++ [text]) ++ after := by simp
    rw [hsplit] at hts hshort
    refine h.uncut before text ((List.prefix_append _ _).trans hts) ?_
    rw [List.flatten_append, List.length_append] at hshort
    omega

theorem AppendsOk.textsFit (h : AppendsOk len texts) : TextsFit len texts := by
  obtain ⟨buf, hbuf, hlt, _⟩ := h texts List.prefix_rfl
  have hlen : 0 < len := Nat.zero_lt_of_lt hlt
  rw [appendAll_eq texts hlen] at hbuf
  split_ifs at hbuf with hfit
  constructor
  · rw [← length_flatten_formatted]
    exact hfit
  · intro ts text hts hshort
    obtain ⟨buf', hbuf', _, hexact⟩ := h _ hts
    have hfit' : ((ts ++ [text]).map formatted).flatten.length < len :=
      lt_of_le_of_lt (length_formatted_le hts) hfit
    rw [appendAll_eq _ hlen, if_pos hfit', Option.some.injEq] at hbuf'
    -- the text is there as a whole, and each part of it is at most as long as it should be
    have hsame : ((ts ++ [text]).map formatted).flatten.length = (ts ++ [text]).flatten.length := by
      rw [hbuf', hexact hshort]
    have hbefore : (ts.map formatted).flatten.length ≤ ts.flatten.length := by
      rw [length_flatten_formatted, List.length_flatten]
      exact List.sum_le_sum fun text _ => Nat.min_le_left _ _
    rw [List.map_append, List.flatten_append, List.flatten_append, List.length_append,
      List.length_append, List.map_singleton, List.flatten_singleton, List.flatten_singleton,
      length_formatted] at hsame
    omega

/-- **Any number of appends.**  The string stays in the buffer, and is the concatenation as long as
that fits, iff the texts fit. -/
theorem appendsOk_iff (len : ℕ) (texts : List Bytes) : AppendsOk len texts ↔ TextsFit len texts :=
  ⟨AppendsOk.textsFit, TextsFit.appendsOk⟩

/-- Two calls with texts that each are shorter than the buffer. -/
theorem not_appendsOk : ¬ ∀ (len : ℕ) (texts : List Bytes), 1 ≤ len → AppendsOk len texts := by
  intro h
  obtain ⟨buf, hbuf, _⟩ := h 4 [bytes "abc", bytes "d"] (by decide) _ List.prefix_rfl
  have hnone : appendAll 4 [bytes "abc", bytes "d"] = none := by decide
  rw [hnone] at hbuf
  exact absurd hbuf (by simp)

end H2ClientProxy
