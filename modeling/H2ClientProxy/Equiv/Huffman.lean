import H2ClientProxy.Equiv.HuffmanTable
import H2ClientProxy.Equiv.Request
import Mathlib.Algebra.BigOperators.Group.List.Basic

/-!
# What is encoded is decoded, and nothing else

* `ofBytes_hdHuffEncode`: `nghttp2_hd_huff_encode` writes the codes of the bytes one behind the other, and
  fills the last byte up with ones.
* `length_hdHuffEncode`: it writes as many bytes as `nghttp2_hd_huff_encode_count` says.
* `hdHuffDecode_iff`: `nghttp2_hd_huff_decode` accepts what has been encoded and nothing else.
-/

namespace H2ClientProxy.Nghttp2

open PrefixCode

variable {o : HuffOut} {r : ℕ} {w : List Bool} {src dst bufs bufs' : Bytes} {ctx ctx' : HuffDecodeContext}

/-! ### Encoding -/

theorem ofNat_toUInt8 (n : ℕ) : Bits.ofNat 8 n.toUInt8.toNat = Bits.ofNat 8 n := by
  rw [show n.toUInt8.toNat = n % 2 ^ 8 from rfl, Bits.ofNat_mod le_rfl]

/-- The bits of a byte whose low bits are filled in. -/
theorem ofNat_or_toUInt8 {b : UInt8} {x : List Bool} {d : ℕ} (hr : r ≤ 8)
    (hb : Bits.ofNat 8 b.toNat = x ++ List.replicate r false) (hd : d < 2 ^ r) :
    Bits.ofNat 8 (b ||| d.toUInt8).toNat = x ++ Bits.ofNat r d := by
  have hcut := Bits.ofNat_add (8 - r) r b.toNat
  rw [Nat.sub_add_cancel hr, hb] at hcut
  obtain ⟨hx, hzero⟩ := List.append_inj' hcut (by rw [List.length_replicate, Bits.length_ofNat])
  have hdvd : 2 ^ r ∣ b.toNat := by
    apply Nat.dvd_of_mod_eq_zero
    apply Bits.ofNat_injOn (n := r) (Nat.mod_lt _ (Nat.two_pow_pos r)) (Nat.two_pow_pos r)
    rw [Bits.ofNat_mod le_rfl, ← hzero, Bits.ofNat_zero]
  have hpow : 2 ^ r ≤ 2 ^ 8 := Nat.pow_le_pow_right Nat.two_pos hr
  have hval : (b ||| d.toUInt8).toNat = b.toNat ||| d := by
    rw [UInt8.toNat_or, show d.toUInt8.toNat = d % 2 ^ 8 from rfl, Nat.mod_eq_of_lt (hd.trans_le hpow)]
  have h := Bits.ofNat_or (m := 8 - r) hdvd hd
  rw [Nat.sub_add_cancel hr, ← hx] at h
  rw [hval, h]

/-- The bits `w` have been written, and the low `r` bits of the byte that is held are free. -/
def Held (o : HuffOut) (r : ℕ) (w : List Bool) : Prop :=
  ∃ x, w = Bits.ofBytes o.data ++ x ∧ Bits.ofNat 8 o.held.toNat = x ++ List.replicate r false

/-- The bits `w` have been written; with eight bits free the byte that is held is not looked at. -/
def Written (o : HuffOut) (r : ℕ) (w : List Bool) : Prop :=
  if r = 8 then Bits.ofBytes o.data = w else Held o r w

theorem ofBytes_addb (o : HuffOut) (b : ℕ) :
    Bits.ofBytes (o.addb b).data = Bits.ofBytes o.data ++ Bits.ofNat 8 b := by
  rw [HuffOut.addb, Bits.ofBytes_append, Bits.ofBytes_cons, Bits.ofBytes_nil, List.append_nil, ofNat_toUInt8]

theorem Held.orb (h : Held o r w) (hr : r ≤ 8) {d : ℕ} (hd : d < 2 ^ r) :
    Bits.ofBytes (o.orb d).data = w ++ Bits.ofNat r d := by
  obtain ⟨x, rfl, hx⟩ := h
  rw [HuffOut.orb, Bits.ofBytes_append, Bits.ofBytes_cons, Bits.ofBytes_nil, List.append_nil,
    ofNat_or_toUInt8 hr hx hd, List.append_assoc]

theorem held_addbHold {o : HuffOut} {d r : ℕ} {x : List Bool}
    (hd : Bits.ofNat 8 d = x ++ List.replicate r false) : Held (o.addbHold d) r (Bits.ofBytes o.data ++ x) :=
  ⟨x, rfl, by rw [HuffOut.addbHold, ofNat_toUInt8, hd]⟩

/-- The last byte of a code that is aligned to the left. -/
theorem last_of_aligned {c q pad : ℕ} {y : List Bool} (hpad : pad ≤ 8)
    (h : Bits.ofNat (q + 8) c = y ++ List.replicate pad false) :
    ∃ x, Bits.ofNat 8 c = x ++ List.replicate pad false ∧ y = Bits.ofNat q (c >>> 8) ++ x := by
  have hbyte := Bits.ofNat_add (8 - pad) pad c
  rw [Nat.sub_add_cancel hpad] at hbyte
  rw [Bits.ofNat_add, hbyte, ← List.append_assoc] at h
  obtain ⟨hy, hzero⟩ := List.append_inj' h (by rw [List.length_replicate, Bits.length_ofNat])
  exact ⟨_, by rw [hbyte, hzero], hy.symm⟩

theorem huffAddHigh_of_lt {o : HuffOut} {code n k : ℕ} (h : n < k) :
    huffAddHigh code n (o, k) = (o.addb (code >>> n), k - 8) := if_pos h

theorem huffAddHigh_of_le {o : HuffOut} {code n k : ℕ} (h : k ≤ n) :
    huffAddHigh code n (o, k) = (o, k) := if_neg (Nat.not_lt.mpr h)

/-- The longer code path writes all bytes but the last one. -/
theorem huffAddHigh_spec (o : HuffOut) (code : ℕ) {k : ℕ} (hk : 8 ≤ k) (hk' : k ≤ 32) :
    ∃ o1 q, huffAddHigh code 8 (huffAddHigh code 16 (huffAddHigh code 24 (o, k))) = (o1, k - q) ∧
      0 < k - q ∧ k - q ≤ 8 ∧ q % 8 = 0 ∧ q ≤ k ∧
      Bits.ofBytes o1.data = Bits.ofBytes o.data ++ Bits.ofNat q (code >>> 8) := by
  have h16 : Bits.ofNat 16 (code >>> 8) = Bits.ofNat 8 (code >>> 16) ++ Bits.ofNat 8 (code >>> 8) := by
    rw [Bits.ofNat_add 8 8, ← Nat.shiftRight_add]
  have h24 : Bits.ofNat 24 (code >>> 8) = Bits.ofNat 8 (code >>> 24) ++ Bits.ofNat 16 (code >>> 8) := by
    rw [Bits.ofNat_add 8 16, ← Nat.shiftRight_add]
  by_cases h1 : k ≤ 8
  · have a1 : huffAddHigh code 24 (o, k) = (o, k) := huffAddHigh_of_le (by omega)
    have a2 : huffAddHigh code 16 (o, k) = (o, k) := huffAddHigh_of_le (by omega)
    refine ⟨o, 0, by rw [a1, a2, huffAddHigh_of_le h1, Nat.sub_zero], by omega, by omega, rfl, by omega, ?_⟩
    rw [Bits.ofNat, List.append_nil]
  by_cases h2 : k ≤ 16
  · have a1 : huffAddHigh code 24 (o, k) = (o, k) := huffAddHigh_of_le (by omega)
    have a2 : huffAddHigh code 16 (o, k) = (o, k) := huffAddHigh_of_le h2
    refine ⟨o.addb (code >>> 8), 8, by rw [a1, a2, huffAddHigh_of_lt (by omega)], by omega, by omega, rfl,
      by omega, ofBytes_addb _ _⟩
  by_cases h3 : k ≤ 24
  · have a1 : huffAddHigh code 24 (o, k) = (o, k) := huffAddHigh_of_le h3
    have a2 : huffAddHigh code 16 (o, k) = (o.addb (code >>> 16), k - 8) := huffAddHigh_of_lt (by omega)
    refine ⟨(o.addb (code >>> 16)).addb (code >>> 8), 16, ?_, by omega, by omega, rfl, by omega, ?_⟩
    · rw [a1, a2, huffAddHigh_of_lt (by omega), Nat.sub_sub]
    · rw [ofBytes_addb, ofBytes_addb, h16, List.append_assoc]
  · have a1 : huffAddHigh code 24 (o, k) = (o.addb (code >>> 24), k - 8) := huffAddHigh_of_lt (by omega)
    have a2 : huffAddHigh code 16 (o.addb (code >>> 24), k - 8) =
        ((o.addb (code >>> 24)).addb (code >>> 16), k - 8 - 8) := huffAddHigh_of_lt (by omega)
    refine ⟨((o.addb (code >>> 24)).addb (code >>> 16)).addb (code >>> 8), 24, ?_, by omega, by omega, rfl,
      by omega, ?_⟩
    · rw [a1, a2, huffAddHigh_of_lt (by omega), Nat.sub_sub, Nat.sub_sub]
    · rw [ofBytes_addb, ofBytes_addb, ofBytes_addb, h24, h16, List.append_assoc, List.append_assoc]

/-- The code that is left, aligned to the left. -/
theorem ofNat_aligned (code : ℕ) {k : ℕ} (hk : k ≤ 29) :
    ∃ pad, pad < 8 ∧ (k + pad) % 8 = 0 ∧
      Bits.ofNat (k + pad) (if k % 8 = 0 then code else (code <<< (8 - k % 8)) % 2 ^ 32) =
        Bits.ofNat k code ++ List.replicate pad false := by
  by_cases h : k % 8 = 0
  · exact ⟨0, by omega, by omega, by rw [if_pos h, List.replicate_zero, List.append_nil, Nat.add_zero]⟩
  · refine ⟨8 - k % 8, by omega, by omega, ?_⟩
    rw [if_neg h, Bits.ofNat_mod (by omega), Bits.ofNat_shiftLeft]

/-- **A symbol** is written behind the bits that are there. -/
theorem written_huffEncodeSym {sym : HuffSym}
    (hsym : 0 < sym.nbits ∧ sym.nbits ≤ 30 ∧ sym.code < 2 ^ sym.nbits) (h : Held o r w) (hr0 : 0 < r)
    (hr : r ≤ 8) :
    0 < (huffEncodeSym o r sym).2 ∧ (huffEncodeSym o r sym).2 ≤ 8 ∧
      Written (huffEncodeSym o r sym).1 (huffEncodeSym o r sym).2 (w ++ sym.bits) := by
  obtain ⟨hn0, hn, hcode⟩ := hsym
  unfold huffEncodeSym
  by_cases hlt : r > sym.nbits
  · -- the byte that is held takes the whole code
    rw [if_pos hlt]
    refine ⟨by show 0 < r - _; omega, by show r - _ ≤ 8; omega, ?_⟩
    rw [Written, if_neg (by show r - _ ≠ 8; omega)]
    obtain ⟨x, rfl, hx⟩ := h
    have hshift : sym.code <<< (r - sym.nbits) < 2 ^ r := by
      rw [Nat.shiftLeft_eq, ← Nat.sub_add_cancel (Nat.le_of_lt hlt), Nat.add_comm, Nat.pow_add,
        Nat.add_sub_cancel_left]
      exact Nat.mul_lt_mul_of_pos_right hcode (Nat.two_pow_pos _)
    refine ⟨x ++ sym.bits, by rw [List.append_assoc]; rfl, ?_⟩
    have hfill := ofNat_or_toUInt8 hr hx hshift
    have hbits := Bits.ofNat_shiftLeft sym.nbits (r - sym.nbits) sym.code
    rw [Nat.add_sub_of_le (Nat.le_of_lt hlt)] at hbits
    rw [hbits, ← List.append_assoc] at hfill
    exact hfill
  rw [if_neg hlt]
  by_cases heq : r = sym.nbits
  · rw [if_pos heq]
    refine ⟨Nat.succ_pos 7, le_rfl, ?_⟩
    rw [Written, if_pos rfl, h.orb hr (heq ▸ hcode), HuffSym.bits, heq]
  rw [if_neg heq]
  -- the byte is completed, and `sym.nbits - r` bits of the code are left
  have hk : sym.nbits = r + (sym.nbits - r) := by omega
  have hhigh : sym.code >>> (sym.nbits - r) < 2 ^ r := by
    rw [Nat.shiftRight_eq_div_pow, Nat.div_lt_iff_lt_mul (Nat.two_pow_pos _), ← Nat.pow_add, ← hk]
    exact hcode
  have hdata := h.orb hr hhigh
  have hbits : sym.bits =
      Bits.ofNat r (sym.code >>> (sym.nbits - r)) ++ Bits.ofNat (sym.nbits - r) sym.code := by
    rw [HuffSym.bits, ← Bits.ofNat_add, ← hk]
  rw [hbits, ← List.append_assoc, ← hdata]
  generalize o.orb (sym.code >>> (sym.nbits - r)) = o1
  obtain ⟨pad, hpad, hmod, halign⟩ := ofNat_aligned sym.code (show sym.nbits - r ≤ 29 by omega)
  dsimp only
  generalize hc : (if (sym.nbits - r) % 8 = 0 then sym.code
    else (sym.code <<< (8 - (sym.nbits - r) % 8)) % 2 ^ 32) = c at halign ⊢
  clear hc
  have hk0 : 0 < sym.nbits - r := by omega
  have hk29 : sym.nbits - r ≤ 29 := by omega
  generalize sym.nbits - r = k at *
  by_cases h8 : k < 8
  · obtain rfl : pad = 8 - k := by omega
    rw [if_pos h8]
    refine ⟨by show 0 < 8 - k; omega, by show 8 - k ≤ 8; omega, ?_⟩
    rw [Written, if_neg (by show 8 - k ≠ 8; omega)]
    rw [Nat.add_sub_of_le (Nat.le_of_lt h8)] at halign
    exact held_addbHold halign
  · rw [if_neg h8]
    obtain ⟨o2, q, hp, hpos, hle, hq8, hqk, hdata2⟩ := huffAddHigh_spec o1 c (Nat.le_of_not_lt h8) (by omega)
    rw [hp]
    have hq : k + pad = q + 8 := by omega
    rw [hq] at halign
    obtain ⟨x, hx, hy⟩ := last_of_aligned (Nat.le_of_lt hpad) halign
    rw [hy, ← List.append_assoc, ← hdata2]
    by_cases hlast : k - q = 8
    · obtain rfl : pad = 0 := by omega
      rw [List.replicate_zero, List.append_nil] at hx
      rw [if_pos hlast]
      refine ⟨Nat.succ_pos 7, le_rfl, ?_⟩
      rw [Written, if_pos rfl, ofBytes_addb, hx]
    · rw [if_neg hlast]
      refine ⟨by show 0 < 8 - (k - q); omega, by show 8 - (k - q) ≤ 8; omega, ?_⟩
      rw [Written, if_neg (by show 8 - (k - q) ≠ 8; omega), show 8 - (k - q) = pad by omega]
      exact held_addbHold hx

theorem huffSym_byte_ok (c : UInt8) : 0 < (huffSym c.toNat).nbits ∧ (huffSym c.toNat).nbits ≤ 30 ∧
    (huffSym c.toNat).code < 2 ^ (huffSym c.toNat).nbits :=
  huffSym_ok (c.toNat_lt.trans (by decide))

/-- The byte that is held is cleared before its first bits are written. -/
theorem Written.held (h : Written o r w) : Held (if r = 8 then o.addbHold 0 else o) r w := by
  rw [Written] at h
  split_ifs at h ⊢ with h8
  · subst h8
    refine ⟨[], by rw [List.append_nil]; exact h.symm, ?_⟩
    rw [HuffOut.addbHold, ofNat_toUInt8, Bits.ofNat_zero]
    rfl
  · exact h

theorem written_hdHuffEncodeLoop (src : Bytes) (h : Written o r w) (hr0 : 0 < r) (hr : r ≤ 8) :
    0 < (hdHuffEncodeLoop src o r).2 ∧ (hdHuffEncodeLoop src o r).2 ≤ 8 ∧
      Written (hdHuffEncodeLoop src o r).1 (hdHuffEncodeLoop src o r).2 (w ++ encode huffCode src) := by
  induction src generalizing o r w with
  | nil =>
    rw [encode_nil, List.append_nil]
    exact ⟨hr0, hr, h⟩
  | cons c src ih =>
    obtain ⟨h0, h8, hw⟩ := written_huffEncodeSym (huffSym_byte_ok c) h.held hr0 hr
    have hrest := ih hw h0 h8
    rw [List.append_assoc] at hrest
    exact hrest

/-- The bits that fill up the last byte. -/
theorem eos_shiftRight {r : ℕ} (hr : r ≤ 30) :
    (huffSym 256).code >>> ((huffSym 256).nbits - r) = 2 ^ r - 1 := by
  have hlow : ((2 ^ 30 - 1) >>> (30 - r)) < 2 ^ r := by
    rw [Nat.shiftRight_eq_div_pow, Nat.div_lt_iff_lt_mul (Nat.two_pow_pos _), ← Nat.pow_add,
      Nat.add_sub_of_le hr]
    decide
  have hones : Bits.ofNat 30 (2 ^ 30 - 1) = Bits.ofNat r ((2 ^ 30 - 1) >>> (30 - r)) ++
      Bits.ofNat (30 - r) (2 ^ 30 - 1) := by
    rw [← Bits.ofNat_add, Nat.add_sub_of_le hr]
  have hcut : List.replicate 30 true = List.replicate r true ++ List.replicate (30 - r) true := by
    rw [List.replicate_append_replicate, Nat.add_sub_of_le hr]
  rw [Bits.ofNat_ones, hcut] at hones
  have hr' := (List.append_inj hones (by rw [List.length_replicate, Bits.length_ofNat])).1
  rw [huffSym_eos]
  exact Bits.ofNat_injOn hlow (Nat.sub_lt (Nat.two_pow_pos r) Nat.one_pos) (by rw [← hr', Bits.ofNat_ones])

/-- **The encoder** writes the codes, and fills the last byte up with ones. -/
theorem ofBytes_hdHuffEncode (src : Bytes) :
    ∃ k < 8, Bits.ofBytes (hdHuffEncode src) = encode huffCode src ++ List.replicate k true := by
  have hinit : Written {} 8 [] := by
    rw [Written, if_pos rfl]
    rfl
  obtain ⟨h0, h8, hw⟩ := written_hdHuffEncodeLoop src hinit (Nat.succ_pos 7) le_rfl
  rw [List.nil_append] at hw
  unfold hdHuffEncode
  generalize hdHuffEncodeLoop src {} 8 = p at h0 h8 hw
  dsimp only
  rw [Written] at hw
  split_ifs at hw with hp
  · exact ⟨0, by decide, by rw [if_neg (by omega), hw, List.replicate_zero, List.append_nil]⟩
  · refine ⟨p.2, by omega, ?_⟩
    have hlt : 2 ^ p.2 - 1 < 2 ^ p.2 := Nat.sub_lt (Nat.two_pow_pos _) Nat.one_pos
    rw [if_pos (by omega), eos_shiftRight (by omega), hw.orb h8 hlt, Bits.ofNat_ones]

theorem length_encode (src : Bytes) :
    (encode huffCode src).length = (src.map fun c => (huffSym c.toNat).nbits).sum := by
  induction src with
  | nil => rfl
  | cons c src ih =>
    rw [encode_cons, List.length_append, ih, huffCode, HuffSym.bits, Bits.length_ofNat, List.map_cons,
      List.sum_cons]

theorem length_hdHuffEncode (src : Bytes) : (hdHuffEncode src).length = hdHuffEncodeCount src := by
  obtain ⟨k, hk, h⟩ := ofBytes_hdHuffEncode src
  have hlen := congrArg List.length h
  rw [Bits.length_ofBytes, List.length_append, length_encode, List.length_replicate] at hlen
  rw [hdHuffEncodeCount]
  omega

/-! ### Decoding -/

theorem high_lt (c : UInt8) : (c >>> 4).toNat < 16 := by
  have hlt := c.toNat_lt
  rw [UInt8.toNat_shiftRight, Nat.shiftRight_eq_div_pow, show UInt8.toNat 4 % 8 = 4 from rfl]
  omega

theorem low_lt (c : UInt8) : (c &&& 0xf).toNat < 16 := by
  rw [UInt8.toNat_and]
  exact Nat.and_lt_two_pow _ (show (15 : ℕ) < 2 ^ 4 by decide)

/-- The two blocks of a byte. -/
def nibbles (c : UInt8) : List (Fin 16) := [⟨(c >>> 4).toNat, high_lt c⟩, ⟨(c &&& 0xf).toNat, low_lt c⟩]

theorem bits_nibbles (c : UInt8) : (nibbles c).flatMap huffAutomaton.bits = Bits.ofNat 8 c.toNat := by
  have hlow : c.toNat &&& 15 = c.toNat % 2 ^ 4 := Nat.and_two_pow_sub_one_eq_mod c.toNat 4
  rw [nibbles, List.flatMap_cons, List.flatMap_cons, List.flatMap_nil, List.append_nil, Bits.ofNat_add 4 4]
  show Bits.ofNat 4 (c >>> 4).toNat ++ Bits.ofNat 4 (c &&& 0xf).toNat = _
  rw [UInt8.toNat_shiftRight, UInt8.toNat_and, show (0xf : UInt8).toNat = 15 from rfl, hlow,
    Bits.ofNat_mod le_rfl]
  rfl

theorem bits_flatMap_nibbles (src : Bytes) :
    (src.flatMap nibbles).flatMap huffAutomaton.bits = Bits.ofBytes src := by
  rw [List.flatMap_assoc, Bits.ofBytes]
  exact congrArg (src.flatMap ·) (funext bits_nibbles)

/-- What the flag of the context stands for. -/
structure ContextOk (ctx : HuffDecodeContext) : Prop where
  state : ctx.state < 256
  accept : ctx.accept = mayEnd ctx.state

theorem contextOk_init : ContextOk {} where
  state := Nat.succ_pos 255
  accept := ((mayEnd_iff (Nat.succ_pos 255)).mpr ⟨0, Nat.succ_pos 7, huffPath_zero⟩).symm

theorem huffDecodeStep_ok {s x : ℕ} {t : HuffDecode × Bytes} (h : huffDecodeStep s x bufs = .ok t) :
    (huffDecode s x).fail = false ∧ t = (huffDecode s x, bufs ++ (huffDecode s x).sym.toList) ∧
      (bufs.length ≤ hdMaxNv → t.2.length ≤ hdMaxNv) := by
  unfold huffDecodeStep at h
  dsimp only at h
  split_ifs at h with hf
  refine ⟨Bool.eq_false_iff.mpr hf, ?_⟩
  cases hsym : (huffDecode s x).sym with
  | none =>
    rw [hsym] at h
    obtain rfl := Except.ok.inj h
    rw [Option.toList_none, List.append_nil]
    exact ⟨rfl, id⟩
  | some sym =>
    rw [hsym] at h
    dsimp only [bufsAddb] at h
    by_cases hlt : bufs.length < hdMaxNv
    · rw [if_pos hlt] at h
      obtain rfl := Except.ok.inj h
      refine ⟨rfl, fun _ => ?_⟩
      rw [List.length_append]
      exact hlt
    · rw [if_neg hlt] at h
      cases h

theorem huffDecodeStep_of_fits {s x : ℕ} (hf : (huffDecode s x).fail = false)
    (hfits : (bufs ++ (huffDecode s x).sym.toList).length ≤ hdMaxNv) :
    huffDecodeStep s x bufs = .ok (huffDecode s x, bufs ++ (huffDecode s x).sym.toList) := by
  unfold huffDecodeStep
  dsimp only
  rw [if_neg (Bool.eq_false_iff.mp hf)]
  cases hsym : (huffDecode s x).sym with
  | none => rw [Option.toList_none, List.append_nil]
  | some sym =>
    rw [hsym, Option.toList_some, List.length_append] at hfits
    dsimp only [bufsAddb]
    rw [if_pos (Nat.lt_of_succ_le hfits)]
    rfl

theorem step_of_not_fail {s x : ℕ} (hs : s < 256) (hx : x < 16) (hf : (huffDecode s x).fail = false) :
    huffAutomaton.step ⟨s, hs⟩ ⟨x, hx⟩ =
      some ((huffDecode s x).sym, ⟨(huffDecode s x).state, state_lt s x⟩) :=
  if_neg (Bool.eq_false_iff.mp hf)

theorem not_fail_of_step {s x : ℕ} (hs : s < 256) (hx : x < 16) {r : Option UInt8 × Fin 256}
    (h : huffAutomaton.step ⟨s, hs⟩ ⟨x, hx⟩ = some r) : (huffDecode s x).fail = false := by
  by_contra hf
  have hnone : huffAutomaton.step ⟨s, hs⟩ ⟨x, hx⟩ = none := if_pos (Bool.not_eq_false _ ▸ hf)
  rw [hnone] at h
  cases h

/-- **Soundness** of the loop: what it writes are the symbols that the automaton reads. -/
theorem hdHuffDecodeLoop_ok (hctx : ContextOk ctx) (h : hdHuffDecodeLoop src ctx bufs = .ok (ctx', bufs')) :
    ∃ hctx' : ContextOk ctx', (bufs.length ≤ hdMaxNv → bufs'.length ≤ hdMaxNv) ∧
      ∃ w, bufs' = bufs ++ w ∧
        huffAutomaton.run ⟨ctx.state, hctx.state⟩ (src.flatMap nibbles) =
          some (w, ⟨ctx'.state, hctx'.state⟩) := by
  induction src generalizing ctx bufs with
  | nil =>
    obtain ⟨rfl, rfl⟩ := Prod.mk.inj (Except.ok.inj h)
    exact ⟨hctx, id, [], (List.append_nil _).symm, rfl⟩
  | cons c src ih =>
    obtain ⟨t1, h1, h⟩ := bind_eq_ok.mp h
    obtain ⟨t2, h2, h⟩ := bind_eq_ok.mp h
    obtain ⟨hf1, rfl, hlen1⟩ := huffDecodeStep_ok h1
    obtain ⟨hf2, rfl, hlen2⟩ := huffDecodeStep_ok h2
    have hlt : (huffDecode ctx.state (c >>> 4).toNat).state < 256 := state_lt _ _
    have hctx2 : ContextOk ⟨(huffDecode (huffDecode ctx.state (c >>> 4).toNat).state (c &&& 0xf).toNat).state,
        (huffDecode (huffDecode ctx.state (c >>> 4).toNat).state (c &&& 0xf).toNat).accepted⟩ :=
      ⟨state_lt _ _, accepted_iff hlt (low_lt c) hf2⟩
    obtain ⟨hctx', hlen, w, hw, hrun⟩ := ih hctx2 h
    refine ⟨hctx', fun hb => hlen (hlen2 (hlen1 hb)), (huffDecode ctx.state (c >>> 4).toNat).sym.toList ++
      ((huffDecode (huffDecode ctx.state (c >>> 4).toNat).state (c &&& 0xf).toNat).sym.toList ++ w), ?_, ?_⟩
    · rw [hw, List.append_assoc, List.append_assoc]
    · rw [List.flatMap_cons, nibbles, List.cons_append, Automaton.run_cons,
        step_of_not_fail hctx.state (high_lt c) hf1, Option.bind_some, List.cons_append, Automaton.run_cons,
        step_of_not_fail hlt (low_lt c) hf2, Option.bind_some, List.nil_append, hrun, Option.map_some,
        Option.map_some]

/-- **Completeness** of the loop: it writes what the automaton reads, as far as there is space for it. -/
theorem hdHuffDecodeLoop_of_run {w : Bytes} {s' : Fin 256} (hctx : ContextOk ctx)
    (h : huffAutomaton.run ⟨ctx.state, hctx.state⟩ (src.flatMap nibbles) = some (w, s'))
    (hfits : (bufs ++ w).length ≤ hdMaxNv) :
    ∃ ctx', hdHuffDecodeLoop src ctx bufs = .ok (ctx', bufs ++ w) := by
  induction src generalizing ctx bufs w with
  | nil =>
    obtain ⟨rfl, -⟩ := Prod.mk.inj (Option.some.inj h)
    exact ⟨ctx, by rw [List.append_nil]; rfl⟩
  | cons c src ih =>
    rw [List.flatMap_cons, nibbles, List.cons_append, Automaton.run_cons] at h
    obtain ⟨r1, h1, hrest⟩ := Option.bind_eq_some_iff.mp h
    obtain ⟨p1, hrun1, hp1⟩ := Option.map_eq_some_iff.mp hrest
    have hf1 := not_fail_of_step hctx.state (high_lt c) h1
    rw [step_of_not_fail hctx.state (high_lt c) hf1, Option.some_inj] at h1
    subst h1
    have hlt : (huffDecode ctx.state (c >>> 4).toNat).state < 256 := state_lt _ _
    rw [List.cons_append, Automaton.run_cons] at hrun1
    obtain ⟨r2, h2, hrest2⟩ := Option.bind_eq_some_iff.mp hrun1
    obtain ⟨p2, hrun, rfl⟩ := Option.map_eq_some_iff.mp hrest2
    have hf2 := not_fail_of_step hlt (low_lt c) h2
    rw [step_of_not_fail hlt (low_lt c) hf2, Option.some_inj] at h2
    subst h2
    obtain ⟨rfl, rfl⟩ := Prod.mk.inj hp1
    rw [List.nil_append] at hrun
    have hctx2 : ContextOk ⟨(huffDecode (huffDecode ctx.state (c >>> 4).toNat).state (c &&& 0xf).toNat).state,
        (huffDecode (huffDecode ctx.state (c >>> 4).toNat).state (c &&& 0xf).toNat).accepted⟩ :=
      ⟨state_lt _ _, accepted_iff hlt (low_lt c) hf2⟩
    rw [← List.append_assoc, ← List.append_assoc] at hfits ⊢
    obtain ⟨ctx', hloop⟩ := ih hctx2 hrun hfits
    refine ⟨ctx', ?_⟩
    have hfits2 : (bufs ++ (huffDecode ctx.state (c >>> 4).toNat).sym.toList ++
        (huffDecode (huffDecode ctx.state (c >>> 4).toNat).state (c &&& 0xf).toNat).sym.toList).length
          ≤ hdMaxNv := (List.prefix_append _ _).length_le.trans hfits
    have hfits1 : (bufs ++ (huffDecode ctx.state (c >>> 4).toNat).sym.toList).length ≤ hdMaxNv :=
      (List.prefix_append _ _).length_le.trans hfits2
    rw [hdHuffDecodeLoop, huffDecodeStep_of_fits hf1 hfits1]
    show (huffDecodeStep _ _ _ >>= _) = _
    rw [huffDecodeStep_of_fits hf2 hfits2]
    exact hloop

/-- What fills up the last byte is no code, nor the end of the string. -/
theorem noSymbol_ones {k : ℕ} (hk : k < 8) :
    NoSymbol huffCode (List.replicate k true) ∧ ¬ eosCode <+: List.replicate k true := by
  constructor
  · have h : List.replicate k true <+: eosCode := by
      refine ⟨List.replicate (30 - k) true, ?_⟩
      rw [List.replicate_append_replicate, eosCode_eq, Nat.add_sub_of_le (by omega)]
    exact CodeTree.noSymbol_of_prefix_eos walk_huffCode walk_eosCode h
  · intro h
    have hlen := h.length_le
    rw [eosCode_eq, List.length_replicate, List.length_replicate] at hlen
    omega

/-- A text is determined by its codes, whatever fills up the last byte. -/
theorem eq_hdHuffEncode_iff : src = hdHuffEncode dst ↔
    ∃ k < 8, Bits.ofBytes src = encode huffCode dst ++ List.replicate k true := by
  obtain ⟨k, hk, henc⟩ := ofBytes_hdHuffEncode dst
  constructor
  · rintro rfl
    exact ⟨k, hk, henc⟩
  · rintro ⟨n, hn, h⟩
    have hlen := congrArg List.length h
    have hlen' := congrArg List.length henc
    rw [Bits.length_ofBytes, List.length_append, List.length_replicate] at hlen hlen'
    obtain rfl : n = k := by omega
    exact Bits.ofBytes_injective (h.trans henc.symm)

theorem hdHuffDecode_final {r : HuffDecodeContext × Bytes} : hdHuffDecode {} [] src true = .ok r ↔
    hdHuffDecodeLoop src {} [] = .ok r ∧ r.1.accept = true := by
  constructor
  · intro h
    obtain ⟨r', hloop, hr⟩ := bind_eq_ok.mp h
    split_ifs at hr with hacc
    obtain rfl := Except.ok.inj hr
    rw [Bool.true_and, Bool.not_eq_true', Bool.not_eq_false] at hacc
    exact ⟨hloop, hacc⟩
  · rintro ⟨hloop, hacc⟩
    rw [hdHuffDecode, hloop]
    show (if true && !r.1.accept then _ else _) = _
    rw [hacc]
    rfl

/-- Nothing has been read at the start. -/
theorem bits_of_start (src : Bytes) :
    huffAutomaton.path ⟨_, contextOk_init.state⟩ ++ (src.flatMap nibbles).flatMap huffAutomaton.bits =
      Bits.ofBytes src := by
  rw [bits_flatMap_nibbles]
  show huffPath 0 ++ _ = _
  rw [huffPath_zero, List.nil_append]

/-- **What is accepted is what has been encoded.**  `nghttp2_hd_huff_decode` decodes a whole string to `dst`
if and only if the string is what `nghttp2_hd_huff_encode` writes for `dst`. -/
theorem hdHuffDecode_iff :
    (∃ ctx, hdHuffDecode {} [] src true = .ok (ctx, dst)) ↔
      src = hdHuffEncode dst ∧ dst.length ≤ hdMaxNv := by
  constructor
  · rintro ⟨ctx, h⟩
    obtain ⟨hloop, hacc⟩ := hdHuffDecode_final.mp h
    obtain ⟨hctx, hlen, w, hw, hrun⟩ := hdHuffDecodeLoop_ok contextOk_init hloop
    obtain rfl : dst = w := hw
    refine ⟨eq_hdHuffEncode_iff.mpr ?_, hlen (Nat.zero_le _)⟩
    obtain ⟨k, hk, hpath⟩ := (mayEnd_iff hctx.state).mp (hctx.accept.symm.trans hacc)
    refine ⟨k, hk, ?_⟩
    rw [← bits_of_start, Automaton.run_some hrun]
    exact congrArg (encode huffCode dst ++ ·) hpath
  · rintro ⟨hsrc, hlen⟩
    obtain ⟨k, hk, hbits⟩ := eq_hdHuffEncode_iff.mp hsrc
    obtain ⟨hno, hend⟩ := noSymbol_ones hk
    rw [← bits_of_start] at hbits
    obtain ⟨s', hrun, hs'⟩ := Automaton.run_encode isPrefixCode_huffCode (fun p => noSymbol_of_eosCode) hno
      hend hbits
    have hfits : (([] : Bytes) ++ dst).length ≤ hdMaxNv := hlen
    obtain ⟨ctx, hloop⟩ := hdHuffDecodeLoop_of_run contextOk_init hrun hfits
    obtain ⟨hctx, -, w, -, hrun'⟩ := hdHuffDecodeLoop_ok contextOk_init hloop
    have hstate := (Prod.mk.inj (Option.some.inj (hrun'.symm.trans hrun))).2
    -- the state stands for the padding
    have haccept : ctx.accept = true := by
      rw [hctx.accept, mayEnd_iff hctx.state]
      exact ⟨k, hk, (congrArg huffAutomaton.path hstate).trans hs'⟩
    exact ⟨ctx, hdHuffDecode_final.mpr ⟨hloop, haccept⟩⟩

end H2ClientProxy.Nghttp2
