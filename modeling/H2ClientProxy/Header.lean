import H2ClientProxy.Util
import Mathlib.Data.List.TakeWhile

/-!
# HTTP headers: `header.c`

`struct header` is one record for requests and responses.  Its strings are C strings, so the bytes a
parser callback hands over are read up to their first NUL (`cstr`).  A function that can fail an
`assert` returns `none` when it does.
-/

namespace H2ClientProxy

/-- The C string at the front of a buffer. -/
def cstr (b : Bytes) : Bytes := b.takeWhile (· ≠ 0)

/-- A string without a NUL. -/
def NulFree (b : Bytes) : Prop := ∀ c ∈ b, c ≠ 0

theorem cstr_of_nulFree {b : Bytes} (hb : NulFree b) : cstr b = b := by
  unfold cstr
  rw [List.takeWhile_eq_self_iff]
  intro c hc
  exact decide_eq_true (hb c hc)

/-- `struct field`. -/
structure Field where
  field : Bytes
  value : Bytes
  deriving DecidableEq, Repr

/-- `struct header`.  The members that no modelled function reads (`version`, `headers`,
`header_changed`, `field_count`, `is_upgrade`) are left out. -/
structure Header where
  /-- Which object this is: the ordinal of the request on its connection that `header_new` was
  called for.  Two headers with the same contents are still two objects. -/
  id : ℕ := 0
  method : Bytes := []
  /-- `NULL` until the first `header_set_url`. -/
  url : Option Bytes := none
  lastField : Option Bytes := none
  lastValue : Option Bytes := none
  isLastValue : Bool := false
  listHeaders : List Field := []
  statusCode : ℤ := 0
  deriving DecidableEq, Repr

/-- `header_new`: a zeroed header. -/
def headerNew (id : ℕ) : Header := { id := id }

/-- `header_value(header, field)`: the value of the first field of that name, in any letter case. -/
def headerValue (h : Header) (field : Bytes) : Option Bytes :=
  (h.listHeaders.find? fun f => strcasecmp f.field field).map Field.value

/-- `header_set_method`: `method` is a zeroed `char[10]` followed by a zeroed `char[4]`. -/
def headerSetMethod (h : Header) (method : Bytes) : Header :=
  { h with method := strncpy method 10 }

/-- `header_set_url`: the old text is freed, not extended. -/
def headerSetUrl (h : Header) (url : Bytes) : Header := { h with url := some (cstr url) }

/-- `header_add_pair`. -/
def headerAddPair (h : Header) (field value : Bytes) : Header :=
  { h with listHeaders := h.listHeaders ++ [⟨field, value⟩] }

/-- `header_append_complete`: `none` when `last_field` or `last_value` is `NULL`. -/
def headerAppendComplete (h : Header) : Option Header :=
  if h.isLastValue then
    match h.lastField, h.lastValue with
    | some f, some v =>
      some { h with
        lastField := none, lastValue := none, isLastValue := false,
        listHeaders := h.listHeaders ++ [⟨f, v⟩] }
    | _, _ => none
  else some h

/-- The text of `last_field` or `last_value` after one more fragment. -/
def appendFragment (old : Option Bytes) (fragment : Bytes) : Bytes :=
  old.getD [] ++ cstr fragment

/-- `header_append_field`: a field fragment after a value closes the pair before it. -/
def headerAppendField (h : Header) (field : Bytes) : Option Header := do
  let h ← if h.isLastValue then headerAppendComplete h else some h
  return { h with lastField := some (appendFragment h.lastField field), isLastValue := false }

/-- `header_append_value`. -/
def headerAppendValue (h : Header) (value : Bytes) : Header :=
  { h with lastValue := some (appendFragment h.lastValue value), isLastValue := true }

end H2ClientProxy
