import H2ClientProxy.Header
import Mathlib.Data.List.Forall2

/-!
# Headers from fragments

The parser hands over the names and the values of the fields in fragments, and `header.c` finds the
boundaries of the pairs from the alternation of `header_append_field` and `header_append_value`
alone.

* `PairCut` is one way of cutting a pair into fragments, `feedPairs` feeds them to a header.
* `AtBoundary`, `InField` and `InValue` describe the header after any number of fragments.
* `feedPairs_complete`: from a new header the list of pairs comes out as it went in, however it was
  cut, and no `assert` fails.
-/

namespace H2ClientProxy

/-- The fragments in which the name and the value of one field arrive. -/
structure PairCut where
  fields : List Bytes
  values : List Bytes
  deriving DecidableEq, Repr

/-- The fragments are a way of cutting the pair `p`: at least one for the name and at least one for
the value. -/
structure PairCut.Cuts (cut : PairCut) (p : Field) : Prop where
  fields_ne : cut.fields ≠ []
  values_ne : cut.values ≠ []
  field : cut.fields.flatten = p.field
  value : cut.values.flatten = p.value

/-- `header_append_field` for each fragment of a name. -/
def feedFields (h : Header) (fields : List Bytes) : Option Header :=
  fields.foldlM headerAppendField h

/-- `header_append_value` for each fragment of a value. -/
def feedValues (h : Header) (values : List Bytes) : Header := values.foldl headerAppendValue h

/-- The fragments of one pair. -/
def feedPair (h : Header) (cut : PairCut) : Option Header :=
  (feedFields h cut.fields).map fun h => feedValues h cut.values

/-- The fragments of a list of pairs; `none` when an `assert` fails. -/
def feedPairs (h : Header) (cuts : List PairCut) : Option Header := cuts.foldlM feedPair h

/-! ### The states between two fragments -/

variable {h : Header} {fs : List Field} {f v : Bytes}

theorem nulFree_of_all {b : Bytes} (hb : b.all (· ≠ 0) = true) : NulFree b :=
  fun c hc => of_decide_eq_true (List.all_eq_true.mp hb c hc)

theorem NulFree.of_flatten_cons {b : Bytes} {rest : List Bytes}
    (h : NulFree (b :: rest).flatten) : NulFree b ∧ NulFree rest.flatten := by
  rw [List.flatten_cons] at h
  exact ⟨fun c hc => h c (List.mem_append_left _ hc), fun c hc => h c (List.mem_append_right _ hc)⟩

/-- Nothing has been fed since the pairs `fs`, which are all in `list_headers`. -/
structure AtBoundary (h0 : Header) (fs : List Field) (h : Header) : Prop where
  eq : h = { h0 with
    lastField := none, lastValue := none, isLastValue := false, listHeaders := fs }

/-- The name `f` is being fed. -/
structure InField (h0 : Header) (fs : List Field) (f : Bytes) (h : Header) : Prop where
  eq : h = { h0 with
    lastField := some f, lastValue := none, isLastValue := false, listHeaders := fs }

/-- The value `v` of the name `f` is being fed. -/
structure InValue (h0 : Header) (fs : List Field) (f v : Bytes) (h : Header) : Prop where
  eq : h = { h0 with
    lastField := some f, lastValue := some v, isLastValue := true, listHeaders := fs }

/-- The header is ready for the next pair after the pairs `fs`: either they are all linked, or the
last of them is still in `last_field` and `last_value`. -/
inductive ReadyFor (h0 : Header) (fs : List Field) (h : Header) : Prop
  | between (hb : AtBoundary h0 fs h)
  | inValue {fs' : List Field} {f v : Bytes} (hv : InValue h0 fs' f v h)
      (hfs : fs = fs' ++ [⟨f, v⟩])

variable {h0 : Header}

/-- `header_append_complete` links the pair that is still open. -/
theorem ReadyFor.complete (hr : ReadyFor h0 fs h) :
    ∃ h', headerAppendComplete h = some h' ∧ AtBoundary h0 fs h' := by
  cases hr with
  | between hb =>
    refine ⟨h, ?_, hb⟩
    rw [hb.eq]
    rfl
  | inValue hv hfs =>
    refine ⟨_, ?_, ⟨rfl⟩⟩
    rw [hv.eq, hfs]
    rfl

/-- The first fragment of a name closes the pair before it. -/
theorem ReadyFor.appendField (hr : ReadyFor h0 fs h) {b : Bytes} (hb : NulFree b) :
    ∃ h', headerAppendField h b = some h' ∧ InField h0 fs b h' := by
  refine ⟨_, ?_, ⟨rfl⟩⟩
  cases hr with
  | between hbt =>
    rw [hbt.eq]
    show some _ = some _
    rw [appendFragment, cstr_of_nulFree hb]
    rfl
  | inValue hv hfs =>
    rw [hv.eq, hfs]
    show some _ = some _
    rw [appendFragment, cstr_of_nulFree hb]
    rfl

theorem InField.appendField (hf : InField h0 fs f h) {b : Bytes} (hb : NulFree b) :
    ∃ h', headerAppendField h b = some h' ∧ InField h0 fs (f ++ b) h' := by
  refine ⟨_, ?_, ⟨rfl⟩⟩
  rw [hf.eq]
  show some _ = some _
  rw [appendFragment, cstr_of_nulFree hb]
  rfl

/-- The first fragment of a value. -/
theorem InField.appendValue (hf : InField h0 fs f h) {b : Bytes} (hb : NulFree b) :
    InValue h0 fs f b (headerAppendValue h b) := by
  constructor
  rw [hf.eq, headerAppendValue, appendFragment, cstr_of_nulFree hb]
  rfl

theorem InValue.appendValue (hv : InValue h0 fs f v h) {b : Bytes} (hb : NulFree b) :
    InValue h0 fs f (v ++ b) (headerAppendValue h b) := by
  constructor
  rw [hv.eq, headerAppendValue, appendFragment, cstr_of_nulFree hb]
  rfl

/-! ### Whole names and values -/

/-- The remaining fragments of a name. -/
theorem InField.feedFields {fields : List Bytes} (hf : InField h0 fs f h)
    (hnul : NulFree fields.flatten) :
    ∃ h', feedFields h fields = some h' ∧ InField h0 fs (f ++ fields.flatten) h' := by
  induction fields generalizing f h with
  | nil => exact ⟨h, rfl, by rwa [List.flatten_nil, List.append_nil]⟩
  | cons b rest ih =>
    obtain ⟨hb, hrest⟩ := hnul.of_flatten_cons
    obtain ⟨h1, hstep, hf1⟩ := hf.appendField hb
    obtain ⟨h', hfeed, hf'⟩ := ih hf1 hrest
    refine ⟨h', ?_, ?_⟩
    · show (headerAppendField h b >>= fun h => rest.foldlM headerAppendField h) = some h'
      rw [hstep]
      exact hfeed
    · rwa [List.flatten_cons, ← List.append_assoc]

/-- All fragments of a name. -/
theorem ReadyFor.feedFields {fields : List Bytes} (hr : ReadyFor h0 fs h) (hne : fields ≠ [])
    (hnul : NulFree fields.flatten) :
    ∃ h', feedFields h fields = some h' ∧ InField h0 fs fields.flatten h' := by
  cases fields with
  | nil => exact absurd rfl hne
  | cons b rest =>
    obtain ⟨hb, hrest⟩ := hnul.of_flatten_cons
    obtain ⟨h1, hstep, hf1⟩ := hr.appendField hb
    obtain ⟨h', hfeed, hf'⟩ := hf1.feedFields hrest
    refine ⟨h', ?_, hf'⟩
    show (headerAppendField h b >>= fun h => rest.foldlM headerAppendField h) = some h'
    rw [hstep]
    exact hfeed

/-- The remaining fragments of a value. -/
theorem InValue.feedValues {values : List Bytes} (hv : InValue h0 fs f v h)
    (hnul : NulFree values.flatten) :
    InValue h0 fs f (v ++ values.flatten) (feedValues h values) := by
  induction values generalizing v h with
  | nil => rwa [List.flatten_nil, List.append_nil]
  | cons b rest ih =>
    obtain ⟨hb, hrest⟩ := hnul.of_flatten_cons
    rw [List.flatten_cons, ← List.append_assoc]
    exact ih (hv.appendValue hb) hrest

/-- All fragments of a value. -/
theorem InField.feedValues {values : List Bytes} (hf : InField h0 fs f h) (hne : values ≠ [])
    (hnul : NulFree values.flatten) : InValue h0 fs f values.flatten (feedValues h values) := by
  cases values with
  | nil => exact absurd rfl hne
  | cons b rest =>
    obtain ⟨hb, hrest⟩ := hnul.of_flatten_cons
    exact (hf.appendValue hb).feedValues hrest

/-! ### Lists of pairs -/

/-- One pair, however it is cut. -/
theorem ReadyFor.feedPair {cut : PairCut} {p : Field} (hr : ReadyFor h0 fs h) (hcut : cut.Cuts p)
    (hfield : NulFree p.field) (hvalue : NulFree p.value) :
    ∃ h', feedPair h cut = some h' ∧ ReadyFor h0 (fs ++ [p]) h' := by
  rw [← hcut.field] at hfield
  rw [← hcut.value] at hvalue
  obtain ⟨h1, hfeed, hf⟩ := hr.feedFields hcut.fields_ne hfield
  refine ⟨feedValues h1 cut.values, ?_, .inValue (hf.feedValues hcut.values_ne hvalue) ?_⟩
  · rw [H2ClientProxy.feedPair, hfeed]
    rfl
  · rw [hcut.field, hcut.value]

/-- A list of pairs, however they are cut. -/
theorem ReadyFor.feedPairs {pairs : List Field} {cuts : List PairCut} (hr : ReadyFor h0 fs h)
    (hcuts : List.Forall₂ PairCut.Cuts cuts pairs)
    (hnul : ∀ p ∈ pairs, NulFree p.field ∧ NulFree p.value) :
    ∃ h', feedPairs h cuts = some h' ∧ ReadyFor h0 (fs ++ pairs) h' := by
  induction hcuts generalizing fs h with
  | nil => exact ⟨h, rfl, by rwa [List.append_nil]⟩
  | @cons cut p cuts pairs hcut _ ih =>
    obtain ⟨hfield, hvalue⟩ := hnul p List.mem_cons_self
    obtain ⟨h1, hpair, hr1⟩ := hr.feedPair hcut hfield hvalue
    obtain ⟨h', hfeed, hr'⟩ := ih hr1 fun q hq => hnul q (List.mem_cons_of_mem p hq)
    refine ⟨h', ?_, ?_⟩
    · show (H2ClientProxy.feedPair h cut >>= fun h => cuts.foldlM H2ClientProxy.feedPair h) = some h'
      rw [hpair]
      exact hfeed
    · rwa [List.append_cons]

/-- **The fields come out as they went in**: whatever the fragments, a new header that was fed with
them holds the list of pairs after `header_append_complete`, and is otherwise still new. -/
theorem feedPairs_complete (id : ℕ) (pairs : List Field) (cuts : List PairCut)
    (hcuts : List.Forall₂ PairCut.Cuts cuts pairs)
    (hnul : ∀ p ∈ pairs, NulFree p.field ∧ NulFree p.value) :
    (feedPairs (headerNew id) cuts).bind headerAppendComplete =
      some { headerNew id with listHeaders := pairs } := by
  have hnew : ReadyFor (headerNew id) [] (headerNew id) := .between ⟨rfl⟩
  obtain ⟨h1, hfeed, hr⟩ := hnew.feedPairs hcuts hnul
  obtain ⟨h2, hcomplete, hb⟩ := hr.complete
  rw [hfeed, Option.bind_some, hcomplete, hb.eq]
  rfl

/-- Two pairs in seven fragments, one of them empty. -/
theorem feedPairs_complete_seven :
    (feedPairs (headerNew 1)
      [⟨[bytes "Ho", bytes "st"], [bytes "a.", bytes "b"]⟩,
        ⟨[bytes "X"], [[], bytes "y"]⟩]).bind headerAppendComplete =
      some { headerNew 1 with
        listHeaders := [⟨bytes "Host", bytes "a.b"⟩, ⟨bytes "X", bytes "y"⟩] } := by
  refine feedPairs_complete 1 _ _ ?_ ?_
  · exact .cons ⟨by decide, by decide, by decide, by decide⟩
      (.cons ⟨by decide, by decide, by decide, by decide⟩ .nil)
  · intro p hp
    rw [List.mem_cons, List.mem_singleton] at hp
    rcases hp with rfl | rfl
    · exact ⟨nulFree_of_all (by decide), nulFree_of_all (by decide)⟩
    · exact ⟨nulFree_of_all (by decide), nulFree_of_all (by decide)⟩

end H2ClientProxy
