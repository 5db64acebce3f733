import Mathlib.Data.Nat.Bitwise

/-!
# Strings of bits

The low bits of a number as a list, the highest of them first, as they stand in a stream of bytes.

* `ofNat_add`: the string of a number is cut where the number is shifted.
* `ofNat_mod`, `ofNat_or`: truncating a number, and filling in its low bits.
* `ofNat_injOn`: the string determines the number.
* `ofBytes_injective`: the bits of a text determine its bytes.
-/

namespace Bits

variable {m n c d : ℕ}

/-- The low `n` bits of `c`, the highest one first. -/
def ofNat : ℕ → ℕ → List Bool
  | 0, _ => []
  | n + 1, c => c.testBit n :: ofNat n c

@[simp]
theorem length_ofNat (n c : ℕ) : (ofNat n c).length = n := by
  induction n with
  | zero => rfl
  | succ n ih => rw [ofNat, List.length_cons, ih]

theorem ofNat_congr (h : ∀ i < n, c.testBit i = d.testBit i) : ofNat n c = ofNat n d := by
  induction n with
  | zero => rfl
  | succ n ih => rw [ofNat, ofNat, h n n.lt_succ_self, ih fun i hi => h i (hi.trans n.lt_succ_self)]

/-- The high bits are those of the shifted number. -/
theorem ofNat_add (m n c : ℕ) : ofNat (m + n) c = ofNat m (c >>> n) ++ ofNat n c := by
  induction m with
  | zero => rw [Nat.zero_add, ofNat, List.nil_append]
  | succ m ih =>
    rw [Nat.succ_add, ofNat, ih, ofNat, Nat.testBit_shiftRight, Nat.add_comm n m, List.cons_append]

theorem ofNat_mod (h : n ≤ m) (c : ℕ) : ofNat n (c % 2 ^ m) = ofNat n c := by
  apply ofNat_congr
  intro i hi
  rw [Nat.testBit_mod_two_pow, decide_eq_true (hi.trans_le h), Bool.true_and]

theorem ofNat_zero (n : ℕ) : ofNat n 0 = List.replicate n false := by
  induction n with
  | zero => rfl
  | succ n ih => rw [ofNat, ih, Nat.zero_testBit, List.replicate_succ]

theorem ofNat_ones (n : ℕ) : ofNat n (2 ^ n - 1) = List.replicate n true := by
  have h : ∀ m ≤ n, ofNat m (2 ^ n - 1) = List.replicate m true := by
    intro m
    induction m with
    | zero => exact fun _ => rfl
    | succ m ih =>
      intro hm
      rw [ofNat, ih (by omega), Nat.testBit_two_pow_sub_one, decide_eq_true (Nat.lt_of_succ_le hm),
        List.replicate_succ]
  exact h n le_rfl

/-- Zeros are shifted in. -/
theorem ofNat_shiftLeft (n k c : ℕ) : ofNat (n + k) (c <<< k) = ofNat n c ++ List.replicate k false := by
  have hlow : ofNat k (c <<< k) = ofNat k 0 := by
    apply ofNat_congr
    intro i hi
    rw [Nat.testBit_shiftLeft, decide_eq_false (by omega), Bool.false_and, Nat.zero_testBit]
  rw [ofNat_add, hlow, ofNat_zero, Nat.shiftLeft_shiftRight]

/-- A number whose low bits are clear is given other low bits. -/
theorem ofNat_or (hc : 2 ^ n ∣ c) (hd : d < 2 ^ n) :
    ofNat (m + n) (c ||| d) = ofNat m (c >>> n) ++ ofNat n d := by
  have hhigh : ofNat m ((c ||| d) >>> n) = ofNat m (c >>> n) := by
    apply ofNat_congr
    intro i _
    rw [Nat.testBit_shiftRight, Nat.testBit_shiftRight, Nat.testBit_or,
      Nat.testBit_lt_two_pow (hd.trans_le (Nat.pow_le_pow_right Nat.two_pos (by omega))), Bool.or_false]
  have hlow : ofNat n (c ||| d) = ofNat n d := by
    apply ofNat_congr
    intro i hi
    obtain ⟨k, rfl⟩ := hc
    rw [Nat.testBit_or, Nat.testBit_two_pow_mul, decide_eq_false (by omega), Bool.false_and, Bool.false_or]
  rw [ofNat_add, hhigh, hlow]

theorem ofNat_injOn (hc : c < 2 ^ n) (hd : d < 2 ^ n) (h : ofNat n c = ofNat n d) : c = d := by
  have htest : ∀ i < n, c.testBit i = d.testBit i := by
    clear hc hd
    induction n with
    | zero => exact fun i hi => absurd hi (Nat.not_lt_zero i)
    | succ n ih =>
      obtain ⟨htop, hrest⟩ := List.cons.inj h
      intro i hi
      rcases Nat.lt_succ_iff_lt_or_eq.mp hi with hi | rfl
      · exact ih hrest i hi
      · exact htop
  apply Nat.eq_of_testBit_eq
  intro i
  by_cases hi : i < n
  · exact htest i hi
  · have hpow : 2 ^ n ≤ 2 ^ i := Nat.pow_le_pow_right Nat.two_pos (Nat.le_of_not_lt hi)
    rw [Nat.testBit_lt_two_pow (hc.trans_le hpow), Nat.testBit_lt_two_pow (hd.trans_le hpow)]

/-! ### Bytes -/

/-- The bits of a text. -/
def ofBytes (bs : List UInt8) : List Bool := bs.flatMap fun b => ofNat 8 b.toNat

@[simp]
theorem ofBytes_nil : ofBytes [] = [] := rfl

theorem ofBytes_cons (b : UInt8) (bs : List UInt8) : ofBytes (b :: bs) = ofNat 8 b.toNat ++ ofBytes bs := rfl

theorem ofBytes_append (as bs : List UInt8) : ofBytes (as ++ bs) = ofBytes as ++ ofBytes bs :=
  List.flatMap_append

@[simp]
theorem length_ofBytes (bs : List UInt8) : (ofBytes bs).length = 8 * bs.length := by
  induction bs with
  | nil => rfl
  | cons b bs ih => rw [ofBytes_cons, List.length_append, length_ofNat, ih, List.length_cons]; omega

theorem ofBytes_injective : Function.Injective ofBytes := by
  intro as
  induction as with
  | nil =>
    intro bs h
    have hlen := congrArg List.length h
    rw [length_ofBytes, length_ofBytes, List.length_nil] at hlen
    exact (List.eq_nil_of_length_eq_zero (by omega)).symm
  | cons a as ih =>
    intro bs h
    cases bs with
    | nil =>
      have hlen := congrArg List.length h
      rw [length_ofBytes, length_ofBytes, List.length_cons, List.length_nil] at hlen
      omega
    | cons b bs =>
      rw [ofBytes_cons, ofBytes_cons] at h
      obtain ⟨hb, hbs⟩ := List.append_inj h (by rw [length_ofNat, length_ofNat])
      have hab : a.toNat = b.toNat := ofNat_injOn a.toNat_lt b.toNat_lt hb
      rw [UInt8.toNat_inj.mp hab, ih hbs]

end Bits
