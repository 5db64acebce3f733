import H2ClientProxy.DnsWire
import H2ClientProxy.Lib.Wp
import Mathlib.Data.List.TakeWhile
import Mathlib.Data.List.Basic

/-!
# Names on the wire

* `NameIn`: the name at an offset of a datagram as `decode_enc_str` reads it, with every byte in the
  datagram.  With enough steps the decoder finds just this (`NameIn.decode`), and if it ends without
  leaving the datagram there is such a name (`only_decodeEncStr`).
* `NameAt`: a name as RFC 1035 has it, labels and backward pointers.  If the pointers stay below the
  offset 256 it is a name for the decoder too, which writes its text (`NameAt.nameIn`).
* `installDomainName_decodeEncStr`: a host goes through the encoder and the decoder unchanged.
-/

namespace H2ClientProxy.Dns

open Wp

/-! ### Strings in arrays -/

section Arrays

variable {buf data s : Bytes} {k m : ℕ}

theorem strlen_le_of_zero {i : ℕ} (h : buf[i]? = some 0) : strlen buf ≤ i := by
  unfold strlen cstr
  induction buf generalizing i with
  | nil => simp at h
  | cons c buf ih =>
    rw [List.takeWhile_cons]
    by_cases hc : c = 0
    · simp [hc]
    · rw [if_pos (decide_eq_true hc), List.length_cons]
      cases i with
      | zero => exact absurd (Option.some.inj h) hc
      | succ i =>
        rw [List.getElem?_cons_succ] at h
        exact Nat.succ_le_succ (ih h)

theorem length_memcpy (h : k + data.length ≤ buf.length) :
    (memcpy buf k data).length = buf.length := by
  unfold memcpy
  simp only [List.length_append, List.length_take, List.length_drop]
  omega

theorem memcpy_getElem? {i : ℕ} (hk : k ≤ buf.length) (hi : k + data.length ≤ i) :
    (memcpy buf k data)[i]? = buf[i]? := by
  have hlen : (buf.take k ++ data).length = k + data.length := by
    rw [List.length_append, List.length_take, min_eq_left hk]
  unfold memcpy
  rw [List.getElem?_append_right (by omega), hlen, List.getElem?_drop]
  congr 1
  omega

theorem memcpy_getElem?_of_lt {j : ℕ} (hk : k ≤ buf.length) (hj : j < data.length) :
    (memcpy buf k data)[k + j]? = data[j]? := by
  have htake : (buf.take k).length = k := by rw [List.length_take, min_eq_left hk]
  unfold memcpy
  rw [List.getElem?_append_left (by rw [List.length_append]; omega),
    List.getElem?_append_right (by omega), htake, Nat.add_sub_cancel_left]

/-- An array of 256 bytes in which nothing has been written from the offset `m` on. -/
structure ZeroFrom (buf : Bytes) (m : ℕ) : Prop where
  size : buf.length = 256
  zero : ∀ i, m ≤ i → i < 256 → buf[i]? = some 0

theorem zeroFrom_emptyName : ZeroFrom emptyName 0 where
  size := List.length_replicate
  zero := fun _ _ hi => List.getElem?_replicate_of_lt hi

theorem ZeroFrom.strlen_le (h : ZeroFrom buf m) (hm : m < 256) : strlen buf ≤ m :=
  strlen_le_of_zero (h.zero m le_rfl hm)

theorem ZeroFrom.memcpy (h : ZeroFrom buf m) (hk : k ≤ m) (hfit : m + data.length ≤ 256) :
    ZeroFrom (memcpy buf k data) (m + data.length) where
  size := by
    rw [length_memcpy (by rw [h.size]; omega), h.size]
  zero := by
    intro i hi hlt
    rw [memcpy_getElem? (by rw [h.size]; omega) (by omega)]
    exact h.zero i (by omega) hlt

/-- A label with its dot advances the written part by at most its length and one. -/
theorem ZeroFrom.appendLabel (h : ZeroFrom buf m) (hfit : m + data.length + 1 < 256) :
    ∃ buf', appendLabel buf data = some buf' ∧ ZeroFrom buf' (m + data.length + 1) := by
  have hlen : strlen buf ≤ m := h.strlen_le (by omega)
  have h1 : ZeroFrom (Dns.memcpy buf (strlen buf) data) (m + data.length) :=
    h.memcpy hlen (by omega)
  have hlen1 := h1.strlen_le (by omega)
  unfold Dns.appendLabel
  rw [if_pos (by rw [h.size]; omega)]
  simp only
  rw [if_pos (by rw [h1.size]; omega)]
  refine ⟨_, rfl, ?_, fun i hi hlt => ?_⟩
  · rw [length_memcpy (by rw [h1.size]; simp only [List.length_cons, List.length_nil]; omega),
      h1.size]
  · -- the NUL of `strcat` may stand at `m + data.length + 1` itself
    by_cases hi' : strlen (Dns.memcpy buf (strlen buf) data) + 2 ≤ i
    · rw [memcpy_getElem? (by rw [h1.size]; omega) hi']
      exact h1.zero i (by omega) hlt
    · have hi1 : i = strlen (Dns.memcpy buf (strlen buf) data) + 1 := by omega
      rw [hi1, memcpy_getElem?_of_lt (by rw [h1.size]; omega) (by decide)]
      rfl

theorem ZeroFrom.set (h : ZeroFrom buf m) (i : ℕ) : ZeroFrom (buf.set i 0) m where
  size := by rw [List.length_set, h.size]
  zero := by
    intro j hj hlt
    rw [List.getElem?_set]
    split_ifs with h1 h2
    · rfl
    · rw [h.size] at h2
      omega
    · exact h.zero j hj hlt

/-! The text of a name in its array. -/

/-- The array that holds the string `s`. -/
def nameArray (s : Bytes) : Bytes := s ++ List.replicate (256 - s.length) 0

theorem emptyName_eq : emptyName = nameArray [] := rfl

theorem cstr_append_zero (h : ∀ c ∈ s, c ≠ 0) (n : ℕ) : cstr (s ++ List.replicate n 0) = s := by
  unfold cstr
  rw [List.takeWhile_append_of_pos (fun c hc => decide_eq_true (h c hc))]
  cases n with
  | zero => simp
  | succ n => simp [List.replicate_succ]

theorem cstr_nameArray (h : ∀ c ∈ s, c ≠ 0) : cstr (nameArray s) = s := cstr_append_zero h _

theorem strlen_nameArray (h : ∀ c ∈ s, c ≠ 0) : strlen (nameArray s) = s.length := by
  rw [strlen, cstr_nameArray h]

theorem memcpy_nameArray (h : s.length + data.length ≤ 256) :
    memcpy (nameArray s) s.length data = nameArray (s ++ data) := by
  unfold memcpy nameArray
  rw [List.take_left, List.drop_append, List.drop_eq_nil_of_le (by omega), List.drop_replicate,
    List.nil_append, List.length_append]
  congr 2
  omega

theorem nameArray_concat_zero (h : s.length < 256) : nameArray (s ++ [0]) = nameArray s := by
  unfold nameArray
  rw [List.append_assoc, List.length_append, List.length_singleton]
  congr 1
  rw [show 256 - s.length = (256 - (s.length + 1)) + 1 by omega, List.replicate_succ]
  rfl

theorem appendLabel_nameArray (hs : ∀ c ∈ s, c ≠ 0) (hdata : ∀ c ∈ data, c ≠ 0)
    (hfit : s.length + data.length + 1 < 256) :
    appendLabel (nameArray s) data = some (nameArray (s ++ data ++ [46])) := by
  have hsize : (nameArray s).length = 256 := by
    unfold nameArray
    rw [List.length_append, List.length_replicate]
    omega
  have hcat : ∀ c ∈ s ++ data, c ≠ 0 := List.forall_mem_append.2 ⟨hs, hdata⟩
  unfold appendLabel
  rw [strlen_nameArray hs, hsize, if_pos (by omega), memcpy_nameArray (by omega)]
  simp only
  have hsize1 : (nameArray (s ++ data)).length = 256 := by
    unfold nameArray
    rw [List.length_append, List.length_replicate, List.length_append]
    omega
  rw [strlen_nameArray hcat, hsize1, List.length_append, if_pos (by omega), ← List.length_append,
    memcpy_nameArray (by simp only [List.length_append, List.length_cons, List.length_nil]; omega)]
  have hnul : s ++ data ++ [46, 0] = s ++ data ++ [46] ++ [0] := by simp
  rw [hnul, nameArray_concat_zero]
  simp only [List.length_append, List.length_cons, List.length_nil]
  omega

/-- The last statement of the decoder removes the dot behind the last label. -/
theorem nameArray_set (h : s.length < 256) (c : UInt8) :
    (nameArray (s ++ [c])).set s.length 0 = nameArray s := by
  rw [← nameArray_concat_zero h]
  unfold nameArray
  rw [List.append_assoc, List.append_assoc, List.set_append_right _ _ le_rfl]
  simp

end Arrays

/-! ### Reading -/

section Reading

variable {α β : Type} {msg mem : Bytes} {p limit : ℕ} {x : DecodeM α} {f : α → DecodeM β}

/-- The decoder `x` returns `a` and reads only offsets below `limit`. -/
def Finds (limit : ℕ) (x : DecodeM α) (a : α) : Prop := ∀ reads,
  wp x (fun r reads' => r = a ∧ ∃ new, reads' = reads ++ new ∧ ∀ i ∈ new, i < limit)
    (fun _ _ => False) reads

/-- If the decoder `x` returns and has read only offsets below `limit`, then `P` holds of what it
returns. -/
def Only (limit : ℕ) (x : DecodeM α) (P : α → Prop) : Prop := ∀ reads,
  wp x (fun r reads' => ∃ new, reads' = reads ++ new ∧ ((∀ i ∈ new, i < limit) → P r))
    (fun _ _ => True) reads

theorem Finds.pure (limit : ℕ) (a : α) : Finds limit (pure a) a :=
  fun _ => ⟨rfl, [], (List.append_nil _).symm, by simp⟩

theorem Finds.bind {a : α} {b : β} (hx : Finds limit x a) (hf : Finds limit (f a) b) :
    Finds limit (x >>= f) b := by
  intro reads
  rw [wp_bind]
  refine wp_mono (hx reads) ?_ (fun _ _ => id)
  rintro _ _ ⟨rfl, new, rfl, hnew⟩
  refine wp_mono (hf _) ?_ (fun _ _ => id)
  rintro _ _ ⟨rfl, new', rfl, hnew'⟩
  exact ⟨rfl, new ++ new', List.append_assoc .., List.forall_mem_append.2 ⟨hnew, hnew'⟩⟩

theorem Finds.eq_ok {a : α} (h : Finds limit x a) :
    ∃ reads, x [] = .ok a reads ∧ ∀ i ∈ reads, i < limit := by
  obtain ⟨r, reads, hrun, rfl, new, rfl, hnew⟩ := eq_ok_of_wp (h [])
  exact ⟨_, hrun, hnew⟩

theorem Only.pure {P : α → Prop} {a : α} (h : P a) : Only limit (pure a) P :=
  fun _ => ⟨[], (List.append_nil _).symm, fun _ => h⟩

theorem Only.throw (e : DecodeFault) (P : α → Prop) : Only limit (throw e) P := fun _ => trivial

theorem Only.bind {P : α → Prop} {Q : β → Prop} (hx : Only limit x P)
    (hf : ∀ a, Only limit (f a) fun b => P a → Q b) : Only limit (x >>= f) Q := by
  intro reads
  rw [wp_bind]
  refine wp_mono (hx reads) ?_ (fun _ _ => id)
  rintro a _ ⟨new, rfl, hP⟩
  refine wp_mono (hf a _) ?_ (fun _ _ => id)
  rintro b _ ⟨new', rfl, hQ⟩
  refine ⟨new ++ new', List.append_assoc .., fun hall => ?_⟩
  obtain ⟨hnew, hnew'⟩ := List.forall_mem_append.1 hall
  exact hQ hnew' (hP hnew)

theorem Only.imp {P Q : α → Prop} (h : Only limit x P) (hPQ : ∀ a, P a → Q a) :
    Only limit x Q := by
  intro reads
  refine wp_mono (h reads) ?_ (fun _ _ => id)
  rintro a _ ⟨new, rfl, hP⟩
  exact ⟨new, rfl, fun hall => hPQ a (hP hall)⟩

/-- What is read in front of the end of the datagram is read of the datagram. -/
theorem getElem?_of_front (hmem : msg <+: mem) (h : p < msg.length) : mem[p]? = msg[p]? := by
  obtain ⟨rest, rfl⟩ := hmem
  exact List.getElem?_append_left h

theorem readByte_eq {c : UInt8} (h : mem[p]? = some c) (reads : List ℕ) :
    readByte mem p reads = .ok c (reads ++ [p]) := by
  unfold readByte
  rw [h]
  rfl

/-- A byte of the datagram is read. -/
theorem finds_readByte (hmem : msg <+: mem) {c : UInt8} (h : msg[p]? = some c) :
    Finds msg.length (readByte mem p) c := by
  have hlt : p < msg.length := (List.getElem?_eq_some_iff.1 h).1
  intro reads
  rw [wp_of_ok (readByte_eq ((getElem?_of_front hmem hlt).trans h) reads)]
  exact ⟨rfl, [p], rfl, by simpa using hlt⟩

theorem only_readByte (hmem : msg <+: mem) (p : ℕ) :
    Only msg.length (readByte mem p) fun c => msg[p]? = some c := by
  intro reads
  cases h : mem[p]? with
  | none =>
    unfold readByte
    rw [h]
    trivial
  | some c =>
    rw [wp_of_ok (readByte_eq h reads)]
    refine ⟨[p], rfl, fun hall => ?_⟩
    exact (getElem?_of_front hmem (hall p List.mem_cons_self)).symm.trans h

/-- A range of the datagram is read. -/
theorem finds_readBytes (hmem : msg <+: mem) : ∀ (len p : ℕ), p + len ≤ msg.length →
    Finds msg.length (readBytes mem p len) ((msg.drop p).take len)
  | 0, _, _ => by
    rw [List.take_zero]
    exact .pure _ _
  | len + 1, p, h => by
    have hlt : p < msg.length := by omega
    rw [readBytes, List.drop_eq_getElem_cons hlt, List.take_succ_cons]
    refine (finds_readByte hmem (List.getElem?_eq_getElem hlt)).bind ?_
    exact (finds_readBytes hmem len (p + 1) (by omega)).bind (.pure _ _)

theorem only_readBytes (hmem : msg <+: mem) : ∀ (len p : ℕ),
    Only msg.length (readBytes mem p len)
      fun cs => (len ≠ 0 → p + len ≤ msg.length) ∧ cs = (msg.drop p).take len
  | 0, _ => .pure ⟨fun h => absurd rfl h, (List.take_zero ..).symm⟩
  | len + 1, p => by
    rw [readBytes]
    refine (only_readByte hmem p).bind fun c => ?_
    refine (only_readBytes hmem len (p + 1)).bind fun cs => .pure ?_
    rintro ⟨hle, rfl⟩ hc
    obtain ⟨hlt, rfl⟩ := List.getElem?_eq_some_iff.1 hc
    refine ⟨fun _ => ?_, ?_⟩
    · cases len with
      | zero => exact hlt
      | succ len =>
        have := hle (Nat.succ_ne_zero len)
        omega
    · rw [List.drop_eq_getElem_cons hlt, List.take_succ_cons]

end Reading

/-! ### Names as the decoder reads them -/

/-- There is a name at `p` of the datagram, the decoder leaves it at `q`, and with it the array `buf`
becomes `buf'`.  Every byte of it is in the datagram, the array has room, and the pointers lead to an
end.  Only the byte `0xc0` starts a pointer, and its target is the byte after it. -/
inductive NameIn (msg : Bytes) (first : Bool) : ℕ → Bytes → ℕ → Bytes → Prop
  | stop {p : ℕ} {buf : Bytes} (h : msg[p]? = some 0)
      (hfront : (first && strlen buf = 0) = false) :
      NameIn msg first p buf (p + 1) (buf.set (strlen buf - 1) 0)
  | pointer {p q : ℕ} {buf buf' : Bytes} {lo : UInt8} (h : msg[p]? = some 0xc0)
      (hlo : msg[p + 1]? = some lo) (target : NameIn msg first lo.toNat buf q buf') :
      NameIn msg first p buf (p + 2) buf'
  | label {p q : ℕ} {buf buf1 buf' : Bytes} {len : UInt8} (h : msg[p]? = some len)
      (hzero : len ≠ 0) (hptr : len ≠ 0xc0) (hle : p + 1 + len.toNat ≤ msg.length)
      (happend : appendLabel buf ((msg.drop (p + 1)).take len.toNat) = some buf1)
      (rest : NameIn msg first (p + 1 + len.toNat) buf1 q buf') : NameIn msg first p buf q buf'

section Names

variable {msg mem : Bytes} {first : Bool} {p q : ℕ} {buf buf' : Bytes}

/-- The offset of a pointer, as the source computes it from the byte `0xc0` and the one after it. -/
theorem pointer_offset (lo : UInt8) :
    ((0xc0 : UInt8) &&& 0x3f).toNat * 255 + lo.toNat = lo.toNat := by
  rw [show ((0xc0 : UInt8) &&& 0x3f).toNat = 0 from rfl]
  omega

/-- With enough steps the decoder finds the name, and reads nothing outside of the datagram. -/
theorem NameIn.decode (hmem : msg <+: mem) (h : NameIn msg first p buf q buf') :
    ∃ n, ∀ steps, n ≤ steps →
      Finds msg.length (decodeEncStr mem first steps p buf) (q, buf') := by
  induction h with
  | @stop p buf h hfront =>
    refine ⟨1, fun steps hsteps => ?_⟩
    obtain ⟨steps, rfl⟩ : ∃ k, steps = k + 1 := ⟨steps - 1, by omega⟩
    rw [decodeEncStr]
    refine (finds_readByte hmem h).bind ?_
    rw [if_pos rfl, hfront]
    exact .pure _ _
  | @pointer p q buf buf' lo h hlo target ih =>
    obtain ⟨n, hn⟩ := ih
    refine ⟨n + 1, fun steps hsteps => ?_⟩
    obtain ⟨steps, rfl⟩ : ∃ k, steps = k + 1 := ⟨steps - 1, by omega⟩
    rw [decodeEncStr]
    refine (finds_readByte hmem h).bind ?_
    rw [if_neg (by decide), if_pos rfl]
    refine (finds_readByte hmem hlo).bind ?_
    rw [pointer_offset]
    exact (hn steps (by omega)).bind (.pure _ _)
  | @label p q buf buf1 buf' len h hzero hptr hle happend rest ih =>
    obtain ⟨n, hn⟩ := ih
    refine ⟨n + 1, fun steps hsteps => ?_⟩
    obtain ⟨steps, rfl⟩ : ∃ k, steps = k + 1 := ⟨steps - 1, by omega⟩
    rw [decodeEncStr]
    refine (finds_readByte hmem h).bind ?_
    rw [if_neg hzero, if_neg hptr]
    refine (finds_readBytes hmem _ _ hle).bind ?_
    rw [happend]
    exact hn steps (by omega)

/-- If the decoder ends and has read nothing outside of the datagram, then there is a name. -/
theorem only_decodeEncStr (hmem : msg <+: mem) (first : Bool) : ∀ (steps p : ℕ) (buf : Bytes),
    Only msg.length (decodeEncStr mem first steps p buf) fun r => NameIn msg first p buf r.1 r.2
  | 0, _, _ => .throw _ _
  | steps + 1, p, buf => by
    rw [decodeEncStr]
    refine (only_readByte hmem p).bind fun len => ?_
    by_cases hzero : len = 0
    · subst hzero
      rw [if_pos rfl]
      cases hfront : (first && strlen buf = 0) with
      | true => exact .throw _ _
      | false => exact .pure fun h => .stop h hfront
    · rw [if_neg hzero]
      by_cases hptr : len = 0xc0
      · subst hptr
        rw [if_pos rfl]
        refine (only_readByte hmem (p + 1)).bind fun lo => ?_
        rw [pointer_offset]
        refine (only_decodeEncStr hmem first steps lo.toNat buf).bind fun r => .pure ?_
        exact fun htarget hlo h => .pointer h hlo htarget
      · rw [if_neg hptr]
        refine (only_readBytes hmem _ _).bind fun cs => ?_
        cases happend : appendLabel buf cs with
        | none => exact .throw _ _
        | some buf1 =>
          refine (only_decodeEncStr hmem first steps (p + 1 + len.toNat) buf1).imp fun r hrest => ?_
          rintro ⟨hle, rfl⟩ h
          refine .label h hzero hptr (hle fun h0 => hzero ?_) happend hrest
          exact UInt8.toNat_inj.1 h0

end Names

/-! ### Names of RFC 1035 -/

/-- The name at `p` of the message has these labels, and it ends in front of `q`.  A pointer leads back
in the message, to an offset below `limit`. -/
inductive NameAt (msg : Bytes) (limit : ℕ) : ℕ → List Bytes → ℕ → Prop
  | root {p : ℕ} (h : msg[p]? = some 0) : NameAt msg limit p [] (p + 1)
  | pointer {p q : ℕ} {labels : List Bytes} {hi lo : UInt8} (hhi : msg[p]? = some hi)
      (hlo : msg[p + 1]? = some lo) (hbits : 0xc0 ≤ hi)
      (hback : (hi &&& 0x3f).toNat * 256 + lo.toNat < p)
      (hlimit : (hi &&& 0x3f).toNat * 256 + lo.toNat < limit)
      (target : NameAt msg limit ((hi &&& 0x3f).toNat * 256 + lo.toNat) labels q) :
      NameAt msg limit p labels (p + 2)
  | label {p q : ℕ} {label : Bytes} {labels : List Bytes} (h : msg[p]? = some label.length.toUInt8)
      (hpos : 1 ≤ label.length) (hle : label.length ≤ 63) (htext : label <+: msg.drop (p + 1))
      (rest : NameAt msg limit (p + 1 + label.length) labels q) :
      NameAt msg limit p (label :: labels) q

/-- The labels, each followed by a dot. -/
def dotted (labels : List Bytes) : Bytes := labels.flatMap (· ++ [46])

/-- The text of a name. -/
def nameText (labels : List Bytes) : Bytes := [46].intercalate labels

section Rfc

variable {msg : Bytes} {first : Bool} {p q m : ℕ} {buf s : Bytes} {labels : List Bytes}

theorem dotted_eq (hne : labels ≠ []) : dotted labels = nameText labels ++ [46] := by
  unfold dotted nameText
  induction labels with
  | nil => exact absurd rfl hne
  | cons label labels ih =>
    cases labels with
    | nil => simp
    | cons label' labels =>
      rw [List.flatMap_cons, ih (List.cons_ne_nil _ _), List.intercalate_cons_cons]
      simp

theorem length_dotted_cons (label : Bytes) (labels : List Bytes) :
    (dotted (label :: labels)).length = label.length + 1 + (dotted labels).length := by
  unfold dotted
  rw [List.flatMap_cons, List.length_append, List.length_append, List.length_singleton]

/-- A pointer to an offset below 256 is one that the decoder knows. -/
theorem eq_c0_of_lt {hi lo : UInt8} (hbits : 0xc0 ≤ hi)
    (h : (hi &&& 0x3f).toNat * 256 + lo.toNat < 256) :
    hi = 0xc0 ∧ (hi &&& 0x3f).toNat * 256 + lo.toNat = lo.toNat := by
  have hge : 192 ≤ hi.toNat := UInt8.le_iff_toNat_le.1 hbits
  have hlt : hi.toNat < 256 := hi.toNat_lt
  have hmod : (hi &&& 0x3f).toNat = hi.toNat % 64 := by
    rw [UInt8.toNat_and]
    exact Nat.and_two_pow_sub_one_eq_mod hi.toNat 6
  have hzero : (hi &&& 0x3f).toNat = 0 := by omega
  refine ⟨UInt8.toNat_inj.1 ?_, by omega⟩
  show hi.toNat = 192
  omega

/-- The bytes of a label, and its length byte. -/
theorem label_facts {label : Bytes} (hpos : 1 ≤ label.length) (hle : label.length ≤ 63)
    (htext : label <+: msg.drop (p + 1)) : label.length.toUInt8.toNat = label.length ∧
      label.length.toUInt8 ≠ 0 ∧ label.length.toUInt8 ≠ 0xc0 ∧
      p + 1 + label.length ≤ msg.length ∧ (msg.drop (p + 1)).take label.length = label := by
  have hnat : label.length.toUInt8.toNat = label.length := by
    rw [Nat.toUInt8, UInt8.toNat_ofNat']
    exact Nat.mod_eq_of_lt (by omega)
  refine ⟨hnat, fun h => ?_, fun h => ?_, ?_, (List.prefix_iff_eq_take.1 htext).symm⟩
  · rw [h] at hnat
    exact absurd hnat (by show ¬ 0 = label.length; omega)
  · rw [h] at hnat
    exact absurd hnat (by show ¬ 192 = label.length; omega)
  · have hlen := htext.length_le
    rw [List.length_drop] at hlen
    omega

/-- The decoder finds every name whose pointers stay below 256, whatever is in its labels. -/
theorem NameAt.nameIn (h : NameAt msg 256 p labels q) :
    ∀ {buf : Bytes} {m : ℕ}, ZeroFrom buf m → m + (dotted labels).length < 256 →
      ∃ buf', NameIn msg false p buf q buf' := by
  induction h with
  | root h => exact fun _ _ => ⟨_, .stop h rfl⟩
  | pointer hhi hlo hbits _ hlimit _ ih =>
    intro buf m hbuf hfit
    obtain ⟨rfl, hoff⟩ := eq_c0_of_lt hbits hlimit
    obtain ⟨buf', h'⟩ := ih hbuf hfit
    rw [hoff] at h'
    exact ⟨buf', .pointer hhi hlo h'⟩
  | @label p q label labels h hpos hle htext _ ih =>
    intro buf m hbuf hfit
    rw [length_dotted_cons] at hfit
    obtain ⟨hnat, hzero, hptr, hin, htake⟩ := label_facts hpos hle htext
    have hroom : m + label.length + 1 < 256 := by omega
    obtain ⟨buf1, happend, hbuf1⟩ := hbuf.appendLabel hroom
    obtain ⟨buf', h'⟩ := ih hbuf1 (by omega)
    refine ⟨buf', .label h hzero hptr (by rw [hnat]; exact hin) ?_ (by rw [hnat]; exact h')⟩
    rw [hnat, htake]
    exact happend

/-- If there is no NUL in its labels, the array then holds the text of the name. -/
theorem NameAt.nameIn_text (h : NameAt msg 256 p labels q) (first : Bool) :
    ∀ {s : Bytes}, (∀ c ∈ s, c ≠ 0) → (∀ label ∈ labels, ∀ c ∈ label, c ≠ 0) →
      s ++ dotted labels ≠ [] → (s ++ dotted labels).length < 256 →
      NameIn msg first p (nameArray s) q (nameArray (s ++ dotted labels).dropLast) := by
  induction h with
  | @root p h =>
    -- the last dot is taken off
    intro s hs _ hne hfit
    have hempty : dotted [] = [] := rfl
    rw [hempty, List.append_nil] at hne hfit ⊢
    obtain ⟨t, c, rfl⟩ := (List.eq_nil_or_concat s).resolve_left hne
    rw [List.concat_eq_append] at hs hfit ⊢
    have hlen := strlen_nameArray hs
    have hstop : (first && strlen (nameArray (t ++ [c])) = 0) = false →
        NameIn msg first p (nameArray (t ++ [c])) (p + 1) _ := NameIn.stop h
    rw [hlen, List.length_append, List.length_singleton, Nat.add_sub_cancel,
      nameArray_set (by rw [List.length_append] at hfit; omega)] at hstop
    rw [List.dropLast_concat]
    exact hstop (by simp)
  | @pointer p q labels hi lo hhi hlo hbits _ hlimit _ ih =>
    intro s hs hlabels hne hfit
    obtain ⟨rfl, hoff⟩ := eq_c0_of_lt hbits hlimit
    have h' := ih hs hlabels hne hfit
    rw [hoff] at h'
    exact .pointer hhi hlo h'
  | @label p q label labels h hpos hle htext _ ih =>
    -- the array holds the text so far and grows by the label and a dot
    intro s hs hlabels hne hfit
    obtain ⟨hnat, hzero, hptr, hin, htake⟩ := label_facts hpos hle htext
    have hlabel : ∀ c ∈ label, c ≠ 0 := hlabels label List.mem_cons_self
    have hsplit : s ++ dotted (label :: labels) = s ++ label ++ [46] ++ dotted labels := by
      unfold dotted
      rw [List.flatMap_cons]
      simp
    have hs' : ∀ c ∈ s ++ label ++ [46], c ≠ 0 := by
      intro c hc
      rcases List.mem_append.1 hc with hc | hc
      · exact (List.mem_append.1 hc).elim (hs c) (hlabel c)
      · rw [List.mem_singleton.1 hc]
        decide
    rw [hsplit] at hne hfit ⊢
    have h' := ih hs' (fun l hl => hlabels l (List.mem_cons_of_mem _ hl)) hne hfit
    refine .label h hzero hptr (by rw [hnat]; exact hin) ?_ (by rw [hnat]; exact h')
    rw [hnat, htake]
    refine appendLabel_nameArray hs hlabel ?_
    simp only [List.length_append, List.length_singleton] at hfit
    omega

/-- A whole name that is not the root. -/
theorem NameAt.nameIn_nameText (h : NameAt msg 256 p labels q) (hne : labels ≠ [])
    (hlabels : ∀ label ∈ labels, ∀ c ∈ label, c ≠ 0) (hfit : (nameText labels).length ≤ 254)
    (first : Bool) : NameIn msg first p emptyName q (nameArray (nameText labels)) := by
  have hdot := dotted_eq hne
  have hin := h.nameIn_text first (s := []) (by simp) hlabels
    (by rw [List.nil_append, hdot]; exact List.append_ne_nil_of_right_ne_nil _ (by simp))
    (by rw [List.nil_append, hdot, List.length_append, List.length_singleton]; omega)
  rw [List.nil_append, hdot, List.dropLast_concat, ← emptyName_eq] at hin
  exact hin

end Rfc

/-! ### The encoder -/

/-- The labels with their lengths in front. -/
def prefixed (labels : List Bytes) : Bytes := labels.flatMap fun l => l.length.toUInt8 :: l

/-- The wire form of a name without pointers. -/
def encodeName (labels : List Bytes) : Bytes := prefixed labels ++ [0]

section Install

variable {labels : List Bytes} {label front tail : Bytes} {left : ℕ}

theorem getElem?_front (front : Bytes) (c : UInt8) (tail : Bytes) :
    (front ++ c :: tail)[front.length]? = some c := by
  rw [List.getElem?_append_right le_rfl, Nat.sub_self]
  rfl

/-- The scan for the end of a label stops at the dot or NUL behind it. -/
theorem labelEnd_eq {c : UInt8} (hc : c = 0 ∨ c = 46) (tail : Bytes) :
    ∀ (label front : Bytes) (left : ℕ), (∀ c ∈ label, c ≠ 0 ∧ c ≠ 46) → label.length < left →
      labelEnd (front ++ (label ++ c :: tail)) left front.length = some (front.length + label.length)
  | [], front, left + 1, _, _ => by
    rw [labelEnd, List.nil_append, getElem?_front]
    show (if c ≠ 46 ∧ c ≠ 0 then _ else some front.length) = some front.length
    rw [if_neg]
    rintro ⟨h1, h2⟩
    exact hc.elim h2 h1
  | x :: label, front, left + 1, hlabel, hleft => by
    have hx := hlabel x List.mem_cons_self
    rw [labelEnd, List.cons_append, getElem?_front]
    show (if x ≠ 46 ∧ x ≠ 0 then _ else some front.length) = _
    rw [if_pos ⟨hx.2, hx.1⟩]
    have ih := labelEnd_eq hc tail label (front ++ [x]) left
      (fun y hy => hlabel y (List.mem_cons_of_mem _ hy)) (by rw [List.length_cons] at hleft; omega)
    rw [List.append_assoc, List.singleton_append, List.length_append, List.length_singleton] at ih
    rw [ih, List.length_cons]
    congr 1
    omega

/-- The loop passes over the bytes of a label. -/
theorem installLoop_skip (left : ℕ) (tail : Bytes) : ∀ (label front : Bytes), (∀ c ∈ label, c ≠ 0 ∧ c ≠ 46) →
    installLoop (left + label.length) (front ++ (label ++ tail)) front.length =
      installLoop left (front ++ (label ++ tail)) (front.length + label.length)
  | [], _, _ => rfl
  | x :: label, front, hlabel => by
    have hx := hlabel x List.mem_cons_self
    have ih := installLoop_skip left tail label (front ++ [x])
      (fun y hy => hlabel y (List.mem_cons_of_mem _ hy))
    rw [List.append_assoc, List.singleton_append, List.length_append, List.length_singleton] at ih
    rw [List.length_cons, ← Nat.add_assoc left, installLoop, List.cons_append, getElem?_front]
    show (if x = 0 then _ else if x = 46 then _ else _) = _
    rw [if_neg hx.1, if_neg hx.2, ih]
    congr 1
    omega

theorem installLoop_dot {mem : Bytes} {p stop : ℕ} (h : mem[p]? = some 46)
    (hstop : labelEnd mem left (p + 1) = some stop) : installLoop (left + 1) mem p =
      installLoop left (mem.set p (stop - p - 1).toUInt8) (p + 1) := by
  rw [installLoop, h, hstop]
  rfl

/-- The loop turns the dots into lengths.  A label of 46 bytes gets a dot for its length; the loop has
passed that byte when it looks for the next dot. -/
theorem installLoop_labels (tail : Bytes) : ∀ (labels : List Bytes) (front : Bytes) (left : ℕ),
    (∀ label ∈ labels, ∀ c ∈ label, c ≠ 0 ∧ c ≠ 46) →
    (labels.flatMap (46 :: ·)).length < left →
    installLoop left (front ++ (labels.flatMap (46 :: ·) ++ 0 :: tail)) front.length =
      some (front ++ (prefixed labels ++ 0 :: tail), front.length + (prefixed labels).length + 1)
  | [], front, left + 1, _, _ => by
    rw [installLoop, List.flatMap_nil, List.nil_append, getElem?_front]
    rfl
  | label :: labels, front, left + 1, hlabels, hleft => by
    have hlabel := hlabels label List.mem_cons_self
    rw [List.flatMap_cons, List.cons_append, List.length_cons, List.length_append] at hleft
    -- what stands behind the label is a dot or the NUL
    obtain ⟨c, rest, hc, hrest⟩ : ∃ c rest, (c = 0 ∨ c = 46) ∧
        labels.flatMap (46 :: ·) ++ 0 :: tail = c :: rest := by
      cases labels with
      | nil => exact ⟨0, tail, .inl rfl, rfl⟩
      | cons l ls => exact ⟨46, _, .inr rfl, rfl⟩
    have hstop := labelEnd_eq hc rest label (front ++ [46]) left hlabel (by omega)
    rw [← hrest, List.append_assoc, List.singleton_append, List.length_append,
      List.length_singleton] at hstop
    rw [List.flatMap_cons, List.append_assoc, List.cons_append,
      installLoop_dot (getElem?_front ..) hstop]
    rw [show front.length + 1 + label.length - front.length - 1 = label.length by omega,
      List.set_append_right _ _ le_rfl, Nat.sub_self, List.set_cons_zero]
    obtain ⟨left', rfl⟩ : ∃ left', left = left' + label.length := ⟨left - label.length, by omega⟩
    have hskip := installLoop_skip left' (labels.flatMap (46 :: ·) ++ 0 :: tail) label
      (front ++ [label.length.toUInt8]) hlabel
    have ih := installLoop_labels tail labels (front ++ label.length.toUInt8 :: label) left'
      (fun l hl => hlabels l (List.mem_cons_of_mem _ hl)) (by omega)
    rw [List.append_assoc, List.singleton_append, List.length_append, List.length_singleton] at hskip
    rw [List.append_assoc, List.cons_append, List.append_assoc, List.cons_append,
      List.length_append, List.length_cons] at ih
    rw [hskip, show front.length + 1 + label.length = front.length + (label.length + 1) by omega, ih]
    unfold prefixed
    simp only [List.flatMap_cons, List.cons_append, List.append_assoc, List.length_cons,
      List.length_append]
    congr 2
    omega

theorem cons_nameText (hne : labels ≠ []) : 46 :: nameText labels = labels.flatMap (46 :: ·) := by
  unfold nameText
  induction labels with
  | nil => exact absurd rfl hne
  | cons label labels ih =>
    cases labels with
    | nil => simp
    | cons label' labels =>
      rw [List.flatMap_cons, ← ih (List.cons_ne_nil _ _), List.intercalate_cons_cons]
      simp

theorem length_prefixed (labels : List Bytes) :
    (prefixed labels).length = (labels.flatMap (46 :: ·)).length := by
  unfold prefixed
  rw [List.length_flatMap, List.length_flatMap]
  rfl

/-- `install_domain_name` writes the wire form of the name. -/
theorem installDomainName_eq (hne : labels ≠ [])
    (hlabels : ∀ label ∈ labels, ∀ c ∈ label, c ≠ 0 ∧ c ≠ 46) {mem : Bytes} {p : ℕ}
    (hroom : p + (nameText labels).length + 2 ≤ mem.length) :
    installDomainName mem p (nameText labels) =
      some (memcpy mem p (encodeName labels), p + (nameText labels).length + 2) := by
  have hflat := cons_nameText hne
  have hlen : (labels.flatMap (46 :: ·)).length = (nameText labels).length + 1 := by
    rw [← hflat, List.length_cons]
  have hcstr : cstr (nameText labels) = nameText labels := by
    apply cstr_of_nulFree
    have hall : ∀ c ∈ labels.flatMap (46 :: ·), c ≠ 0 := by
      intro c hc
      obtain ⟨label, hl, hc⟩ := List.mem_flatMap.1 hc
      rcases List.mem_cons.1 hc with rfl | hc
      · decide
      · exact (hlabels label hl c hc).1
    rw [← hflat] at hall
    exact fun c hc => hall c (List.mem_cons_of_mem _ hc)
  have htake : (mem.take p).length = p := by rw [List.length_take]; omega
  have hloop := installLoop_labels (mem.drop (p + (nameText labels).length + 2)) labels
    (mem.take p) (mem.length - p) hlabels (by omega)
  rw [htake, length_prefixed, hlen] at hloop
  unfold installDomainName
  simp only
  rw [hcstr, hflat, List.length_append, hlen, List.length_singleton, if_pos (by omega)]
  unfold memcpy encodeName
  simp only [List.length_append, List.length_singleton, length_prefixed, hlen, List.append_assoc,
    List.singleton_append]
  exact hloop

/-- The wire form of a name is a name, wherever it stands. -/
theorem nameAt_prefixed (limit : ℕ) (tail : Bytes) : ∀ (labels : List Bytes) (front : Bytes),
    (∀ label ∈ labels, 1 ≤ label.length ∧ label.length ≤ 63) →
    NameAt (front ++ (prefixed labels ++ 0 :: tail)) limit front.length labels
      (front.length + (prefixed labels).length + 1)
  | [], front, _ => .root (getElem?_front front 0 tail)
  | label :: labels, front, hlabels => by
    have hlabel := hlabels label List.mem_cons_self
    have ih := nameAt_prefixed limit tail labels (front ++ label.length.toUInt8 :: label)
      (fun l hl => hlabels l (List.mem_cons_of_mem _ hl))
    rw [List.length_append, List.length_cons] at ih
    have hmsg : front ++ label.length.toUInt8 :: label ++ (prefixed labels ++ 0 :: tail) =
        front ++ (prefixed (label :: labels) ++ 0 :: tail) := by
      simp [prefixed]
    have hsplit : front ++ (prefixed (label :: labels) ++ 0 :: tail) =
        front ++ label.length.toUInt8 :: (label ++ (prefixed labels ++ 0 :: tail)) := by
      simp [prefixed]
    rw [hmsg] at ih
    have hq : front.length + (prefixed (label :: labels)).length + 1 =
        front.length + (label.length + 1) + (prefixed labels).length + 1 := by
      unfold prefixed
      rw [List.flatMap_cons, List.length_append, List.length_cons]
      omega
    rw [hq]
    refine .label ?_ hlabel.1 hlabel.2 ?_ ?_
    · rw [hsplit]
      exact getElem?_front ..
    · rw [hsplit, List.drop_append, List.drop_eq_nil_of_le (by omega), List.nil_append,
        Nat.add_sub_cancel_left]
      exact List.prefix_append label _
    · rw [show front.length + 1 + label.length = front.length + (label.length + 1) by omega]
      exact ih

/-- No label of a host has a dot in it. -/
theorem not_mem_of_mem_splitOn {host : Bytes} (h : label ∈ host.splitOn 46) : 46 ∉ label := by
  induction host generalizing label with
  | nil =>
    rw [List.splitOn_nil, List.mem_singleton] at h
    rw [h]
    exact List.not_mem_nil
  | cons c host ih =>
    rw [List.splitOn_cons_eq_if_modifyHead] at h
    split_ifs at h with hc
    · rcases List.mem_cons.1 h with rfl | h
      · exact List.not_mem_nil
      · exact ih h
    · obtain ⟨l, ls, hls⟩ := List.exists_cons_of_ne_nil (List.splitOn_ne_nil (46 : UInt8) host)
      rw [hls] at h ih
      rcases List.mem_cons.1 h with rfl | h
      · rw [List.mem_cons, not_or]
        exact ⟨fun heq => hc (by rw [← heq]; rfl), ih List.mem_cons_self⟩
      · exact ih (List.mem_cons_of_mem _ h)

/-- Every label of a host is a part of it. -/
theorem mem_nameText {c : UInt8} (hl : label ∈ labels) (hc : c ∈ label) : c ∈ nameText labels := by
  unfold nameText
  induction labels with
  | nil => exact absurd hl List.not_mem_nil
  | cons l ls ih =>
    cases ls with
    | nil =>
      rw [List.mem_singleton.1 hl] at hc
      simpa using hc
    | cons l' ls =>
      rw [List.intercalate_cons_cons, List.append_assoc, List.mem_append, List.mem_append]
      rcases List.mem_cons.1 hl with rfl | hl
      · exact .inl hc
      · exact .inr (.inr (ih hl))

/-- **Round trip of a host.**  The encoder writes the labels of a host with their lengths and a zero
byte, and returns the position behind it; the decoder, started at that name in any message, writes the
host and returns the same position. -/
theorem installDomainName_decodeEncStr (host : Bytes) (hlen : host.length ≤ 253)
    (hnul : ∀ c ∈ host, c ≠ 0)
    (hlabels : ∀ label ∈ host.splitOn 46, 1 ≤ label.length ∧ label.length ≤ 63) :
    (∀ (mem : Bytes) (p : ℕ), p + host.length + 2 ≤ mem.length →
      installDomainName mem p host =
        some (memcpy mem p (encodeName (host.splitOn 46)), p + host.length + 2)) ∧
    ∀ (front tail : Bytes) (first : Bool), ∃ n, ∀ steps, n ≤ steps → ∀ reads,
      wp (decodeEncStr (front ++ encodeName (host.splitOn 46) ++ tail) first steps front.length
          emptyName)
        (fun r _ => cstr r.2 = host ∧ r.1 = front.length + host.length + 2) (fun _ _ => False)
        reads := by
  have hne := List.splitOn_ne_nil (46 : UInt8) host
  have htext : nameText (host.splitOn 46) = host := List.intercalate_splitOn 46
  have hbytes : ∀ label ∈ host.splitOn 46, ∀ c ∈ label, c ≠ 0 ∧ c ≠ 46 := by
    intro label hl c hc
    have hmem := mem_nameText hl hc
    rw [htext] at hmem
    exact ⟨hnul c hmem, fun h => not_mem_of_mem_splitOn hl (h ▸ hc)⟩
  constructor
  · intro mem p hroom
    have heq := installDomainName_eq hne hbytes (p := p) (by rw [htext]; exact hroom)
    rw [htext] at heq
    exact heq
  · intro front tail first
    have hq : (prefixed (host.splitOn 46)).length = host.length + 1 := by
      rw [length_prefixed, ← cons_nameText hne, htext, List.length_cons]
    have hat := nameAt_prefixed 256 tail (host.splitOn 46) front hlabels
    rw [hq, show front ++ (prefixed (host.splitOn 46) ++ 0 :: tail) =
      front ++ encodeName (host.splitOn 46) ++ tail by simp [encodeName]] at hat
    have hin := hat.nameIn_nameText hne (fun l hl c hc => (hbytes l hl c hc).1)
      (by rw [htext]; omega) first
    rw [htext] at hin
    obtain ⟨n, hn⟩ := hin.decode (List.prefix_refl _)
    refine ⟨n, fun steps hsteps reads => wp_mono (hn steps hsteps reads) ?_ (fun _ _ => id)⟩
    rintro r _ ⟨rfl, -⟩
    exact ⟨cstr_nameArray hnul, rfl⟩

/-- The host of the comment in `install_domain_name`. -/
theorem installDomainName_decodeEncStr_lemuria :
    (∀ label ∈ (bytes "lemuria.cis.vtc.edu").splitOn 46, 1 ≤ label.length ∧ label.length ≤ 63) ∧
    installDomainName (List.replicate 64 0) 12 (bytes "lemuria.cis.vtc.edu") =
      some (memcpy (List.replicate 64 0) 12 (encodeName
        [bytes "lemuria", bytes "cis", bytes "vtc", bytes "edu"]), 33) :=
  ⟨by decide +kernel, (installDomainName_decodeEncStr (bytes "lemuria.cis.vtc.edu")
    (by decide +kernel) (by decide +kernel) (by decide +kernel)).1 (List.replicate 64 0) 12 (by decide +kernel)⟩

end Install

end H2ClientProxy.Dns
