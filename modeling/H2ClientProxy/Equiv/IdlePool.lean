import H2ClientProxy.RelayHttp
import Mathlib.Data.List.Count
import Mathlib.Tactic.SplitIfs

/-!
# The pool of idle relays

`is_idle` and the list that a relay is linked in are written by four functions, which are reached from
the parser, from the connection and from the client.

* `PoolOk`: the flag and the lists agree, and a relay in the pool has a connection and no name lookup.
* `Handed`: what `relay_create` gives to its caller belongs to no one else.
* `wp_run_poolOk`: both hold in every state of every run.
* `wp_run_findsAlive_iff`: which idle relays `relay_sys_find_alive_relay` overlooks.
-/

namespace H2ClientProxy.RelayHttp

open Wp Machine

/-! ### The property -/

/-- Each relay is linked once, in the bucket of its host, if it is idle, and not at all otherwise; what is
linked exists, and has a connection and no name lookup. -/
structure PoolOk (s : Relays) : Prop where
  linked : ∀ r relay, s.relays r = some relay → ∀ h,
    (s.buckets h).count r = if relay.isIdle = true ∧ h = relayCountHash relay.host then 1 else 0
  pooled : ∀ h r, r ∈ s.buckets h →
    ∃ relay, s.relays r = some relay ∧ relay.conn.isSome = true ∧ relay.dnsReq = false

/-- The caller `args` has got the relay `r`, which was new or idle, and is not in the pool any more.
Nothing has happened to the other relays. -/
structure Handed (s : Relays) (args : ℕ) (r : RelayId) (s' : Relays) : Prop where
  before : ∀ relay, s.relays r = some relay → relay.isIdle = true
  after : ∃ relay, s'.relays r = some relay ∧ relay.isIdle = false ∧ relay.args = some args
  out : ∀ h, r ∉ s'.buckets h
  relays : ∀ r', r' ≠ r → s'.relays r' = s.relays r'
  buckets : ∀ h r', r' ≠ r → (s'.buckets h).count r' = (s.buckets h).count r'

/-! ### Symbolic execution -/

section Wp

variable {E : RelayFault → Relays → Prop}

@[simp]
theorem wp_getRelay (r : RelayId) {Q : HttpRelay → Relays → Prop} :
    wp (getRelay r) Q E = fun s =>
      match s.relays r with
      | some relay => Q relay s
      | none => E (.relayFreed r) s := by
  funext s
  simp only [getRelay, wp_bind, wp_get]
  cases s.relays r <;> rfl

@[simp]
theorem wp_putRelay (r : RelayId) (relay : HttpRelay) {Q : Unit → Relays → Prop} :
    wp (putRelay r relay) Q E = fun s => Q () (s.setRelay r (some relay)) := rfl

theorem setRelay_self (s : Relays) (r : RelayId) (relay : Option HttpRelay) :
    (s.setRelay r relay).relays r = relay := Function.update_self ..

end Wp

/-! ### The invariant -/

/-- Names are given out in order. -/
structure PoolInv (s : Relays) : Prop extends PoolOk s where
  fresh : ∀ r, s.nextRelay ≤ r → s.relays r = none

variable {s s' : Relays} {r : RelayId} {relay relay' : HttpRelay}

theorem poolInv_init : PoolInv .init where
  linked := fun _ relay hr => absurd hr.symm (Option.some_ne_none relay)
  pooled := fun _ _ hr => absurd hr List.not_mem_nil
  fresh := fun _ _ => rfl

/-- What is not part of the pool. -/
theorem PoolInv.of_eq (h : PoolInv s) (hrel : s'.relays = s.relays) (hb : s'.buckets = s.buckets)
    (hn : s'.nextRelay = s.nextRelay) : PoolInv s' where
  linked := by rw [hrel, hb]; exact h.linked
  pooled := by rw [hrel, hb]; exact h.pooled
  fresh := by rw [hrel, hn]; exact h.fresh

/-- A relay with an old name. -/
theorem PoolInv.lt (h : PoolInv s) (hr : s.relays r = some relay) : r < s.nextRelay := by
  by_contra hge
  exact absurd (hr.symm.trans (h.fresh r (Nat.le_of_not_lt hge))) (Option.some_ne_none relay)

/-- A relay in the pool is idle. -/
theorem PoolInv.idle (h : PoolInv s) {k : ℕ} (hmem : r ∈ s.buckets k) (hr : s.relays r = some relay) :
    relay.isIdle = true ∧ k = relayCountHash relay.host := by
  have hpos : 0 < (s.buckets k).count r := List.count_pos_iff.mpr hmem
  rw [h.linked r relay hr k] at hpos
  split_ifs at hpos with hk
  · exact hk
  · exact absurd hpos (Nat.lt_irrefl 0)

/-- An idle relay is in the pool. -/
theorem PoolOk.mem (h : PoolOk s) (hr : s.relays r = some relay) (hi : relay.isIdle = true) :
    r ∈ s.buckets (relayCountHash relay.host) := by
  refine List.count_pos_iff.mp ?_
  rw [h.linked r relay hr, if_pos ⟨hi, rfl⟩]
  exact Nat.one_pos

/-- A change of a relay that keeps its place. -/
structure Stays (relay relay' : HttpRelay) : Prop where
  host : relay'.host = relay.host
  isIdle : relay'.isIdle = relay.isIdle
  conn : relay'.conn.isSome = relay.conn.isSome
  dnsReq : relay'.dnsReq = relay.dnsReq

/-- A relay changes that is not in the pool, or one that keeps its connection. -/
theorem PoolInv.setRelay (h : PoolInv s) (hr : s.relays r = some relay) (hhost : relay'.host = relay.host)
    (hidle : relay'.isIdle = relay.isIdle)
    (hwired : relay.isIdle = true → relay'.conn.isSome = relay.conn.isSome ∧
      relay'.dnsReq = relay.dnsReq) : PoolInv (s.setRelay r (some relay')) where
  linked := by
    intro r' x hx k
    show (s.buckets k).count r' = _
    by_cases he : r' = r
    · rw [he, setRelay_self] at hx
      obtain rfl := Option.some.inj hx
      rw [he, h.linked r relay hr, hidle, hhost]
    · have hx' : Function.update s.relays r (some relay') r' = some x := hx
      rw [Function.update_of_ne he] at hx'
      exact h.linked r' x hx' k
  pooled := by
    intro k r' hmem
    obtain ⟨x, hx, hconn, hdns⟩ := h.pooled k r' hmem
    by_cases he : r' = r
    · subst he
      rw [hr] at hx
      obtain rfl := Option.some.inj hx
      obtain ⟨hc, hd⟩ := hwired (h.idle hmem hr).1
      exact ⟨relay', setRelay_self .., hc.trans hconn, hd.trans hdns⟩
    · exact ⟨x, (Function.update_of_ne he _ _).trans hx, hconn, hdns⟩
  fresh := by
    intro r' hr'
    have hne : r' ≠ r := by
      rintro rfl
      have hlt : r' < s.nextRelay := h.lt hr
      have hle : s.nextRelay ≤ r' := hr'
      exact absurd hlt (Nat.not_lt.mpr hle)
    exact (Function.update_of_ne hne _ _).trans (h.fresh r' hr')

theorem PoolInv.stays (h : PoolInv s) (hr : s.relays r = some relay) (hs : Stays relay relay') :
    PoolInv (s.setRelay r (some relay')) :=
  h.setRelay hr hs.host hs.isIdle fun _ => ⟨hs.conn, hs.dnsReq⟩

/-- A relay is freed, and taken out of the pool if it is idle. -/
theorem PoolInv.drop (h : PoolInv s) (hr : s.relays r = some relay)
    (hrel : s'.relays = Function.update s.relays r none)
    (hb : ∀ k, s'.buckets k = if relay.isIdle then (s.buckets k).erase r else s.buckets k)
    (hn : s'.nextRelay = s.nextRelay) : PoolInv s' := by
  have hother : ∀ k r', r' ≠ r → (s'.buckets k).count r' = (s.buckets k).count r' := by
    intro k r' hne
    rw [hb]
    split_ifs
    · exact List.count_erase_of_ne hne
    · rfl
  -- each relay is in its bucket once, so one erase takes it out
  have hout : ∀ k, r ∉ s'.buckets k := by
    intro k
    refine List.count_eq_zero.mp ?_
    have hcount := h.linked r relay hr k
    rw [hb]
    split_ifs with hi
    · rw [List.count_erase_self, hcount]
      split_ifs <;> rfl
    · rw [hcount, if_neg fun hk => hi hk.1]
  constructor
  · constructor
    · intro r' x hx k
      rw [hrel, Function.update_apply] at hx
      split_ifs at hx with he
      rw [hother k r' he]
      exact h.linked r' x hx k
    · intro k r' hmem
      have hne : r' ≠ r := by
        rintro rfl
        exact hout k hmem
      have hmem' : r' ∈ s.buckets k := by
        rw [← List.count_pos_iff, ← hother k r' hne]
        exact List.count_pos_iff.mpr hmem
      rw [hrel, Function.update_of_ne hne]
      exact h.pooled k r' hmem'
  · intro r' hr'
    rw [hn] at hr'
    rw [hrel, Function.update_apply]
    split_ifs
    · rfl
    · exact h.fresh r' hr'

/-! ### The functions of the pool -/

/-- A call keeps the pool in order. -/
def KeepsPool {α : Type} (s : Relays) (x : RelayM α) : Prop :=
  wp x (fun _ => PoolInv) (fun _ _ => True) s

/-- `relay_free`, of a relay whose connection may be gone already. -/
theorem PoolInv.free (h : PoolInv s) (hr : s.relays r = some relay)
    (hrel : s'.relays = Function.update s.relays r (some relay')) (hb : s'.buckets = s.buckets)
    (hn : s'.nextRelay = s.nextRelay) (hidle : relay'.isIdle = relay.isIdle) :
    KeepsPool s' (relayFree r) := by
  have hr' : s'.relays r = some relay' := by
    rw [hrel]
    exact Function.update_self ..
  have hgone : ∀ s1 : Relays, s1.relays = s'.relays →
      (∀ k, s1.buckets k = if relay.isIdle then (s.buckets k).erase r else s.buckets k) →
      s1.nextRelay = s'.nextRelay → PoolInv (s1.setRelay r none) := by
    intro s1 h1 hb1 hn1
    refine h.drop hr ?_ hb1 (hn1.trans hn)
    show Function.update s1.relays r none = _
    rw [h1, hrel, Function.update_idem]
  unfold KeepsPool
  simp only [relayFree, wp_bind, wp_getRelay, hr', wp_modify, wp_ite, hidle]
  split_ifs with hi
  · have hbuckets : ∀ k, (s'.unlink r).buckets k = if relay.isIdle then (s.buckets k).erase r
        else s.buckets k := by
      intro k
      rw [if_pos hi, ← hb]
      rfl
    cases relay'.tmrConnected with
    | none => exact hgone _ rfl hbuckets rfl
    | some t => exact hgone _ rfl hbuckets rfl
  · have hbuckets : ∀ k, s'.buckets k = if relay.isIdle then (s.buckets k).erase r
        else s.buckets k := by
      intro k
      rw [if_neg hi, hb]
    cases relay'.tmrConnected with
    | none => exact hgone _ rfl hbuckets rfl
    | some t => exact hgone _ rfl hbuckets rfl

/-- `relay_free` of any relay. -/
theorem PoolInv.freeAny (h : PoolInv s) (r : RelayId) : KeepsPool s (relayFree r) := by
  cases hr : s.relays r with
  | none =>
    unfold KeepsPool
    simp only [relayFree, wp_bind, wp_getRelay, hr]
  | some relay =>
    have hsame : s.relays = Function.update s.relays r (some relay) := by
      rw [← hr, Function.update_eq_self]
    exact h.free hr hsame rfl rfl rfl

/-- `relay_sys_reuse_relay`. -/
theorem PoolInv.reuse (h : PoolInv s) (r : RelayId) : KeepsPool s (relaySysReuseRelay r) := by
  unfold KeepsPool
  simp only [relaySysReuseRelay, wp_bind, wp_getRelay, wp_ite, wp_throw, wp_putRelay, wp_modify]
  cases hr : s.relays r with
  | none => trivial
  | some relay =>
    dsimp only
    -- the assertions leave a relay that is not idle and has a connection
    split_ifs with hassert
    simp only [Bool.or_eq_true, not_or, Bool.not_eq_true, Option.isNone_eq_false_iff] at hassert
    obtain ⟨⟨⟨-, hidle⟩, hdns⟩, hconn⟩ := hassert
    generalize hx : ({ relay with
      relayStatus := .connected, args := none, isIdle := true, responseHeader := none } :
        HttpRelay) = x
    have hxidle : x.isIdle = true := by rw [← hx]
    have hxhost : x.host = relay.host := by rw [← hx]
    have hcount : ∀ k r', (((s.setRelay r (some x)).link r (relayCountHash relay.host)).buckets
        k).count r' = (s.buckets k).count r' +
          if k = relayCountHash relay.host ∧ r' = r then 1 else 0 := by
      intro k r'
      show (Function.update s.buckets (relayCountHash relay.host)
        (s.buckets (relayCountHash relay.host) ++ [r]) k).count r' = _
      by_cases hk : k = relayCountHash relay.host
      · subst hk
        rw [Function.update_self, List.count_append]
        by_cases he : r' = r
        · rw [if_pos ⟨rfl, he⟩, he, List.count_singleton_self]
        · have hne : List.count r' [r] = 0 :=
            List.count_eq_zero.mpr fun hmem => he (List.mem_singleton.mp hmem)
          rw [if_neg fun hand => he hand.2, hne]
      · rw [Function.update_of_ne hk, if_neg fun hand => hk hand.1, Nat.add_zero]
    constructor
    · constructor
      · intro r' y hy k
        rw [hcount]
        by_cases he : r' = r
        · subst he
          have hy' : Function.update s.relays r' (some x) r' = some y := hy
          rw [Function.update_self] at hy'
          obtain rfl := Option.some.inj hy'
          rw [h.linked r' relay hr, hidle, hxidle, hxhost]
          simp
        · have hy' : Function.update s.relays r (some x) r' = some y := hy
          rw [Function.update_of_ne he] at hy'
          have hno : ¬(k = relayCountHash relay.host ∧ r' = r) := fun hand => he hand.2
          rw [if_neg hno, Nat.add_zero]
          exact h.linked r' y hy' k
      · intro k r' hmem
        by_cases he : r' = r
        · subst he
          refine ⟨x, Function.update_self .., ?_, ?_⟩
          · rw [← hx]
            exact hconn
          · rw [← hx]
            exact hdns
        · have hmem' : r' ∈ s.buckets k := by
            rw [← List.count_pos_iff] at hmem ⊢
            rwa [hcount, if_neg fun hand => he hand.2] at hmem
          obtain ⟨y, hy, hw⟩ := h.pooled k r' hmem'
          exact ⟨y, (Function.update_of_ne he _ _).trans hy, hw⟩
    · intro r' hr'
      have hne : r' ≠ r := by
        rintro rfl
        exact absurd (h.lt hr) (Nat.not_lt.mpr hr')
      exact (Function.update_of_ne hne _ _).trans (h.fresh r' hr')

/-- `relay_sys_find_alive_relay` takes the relay out that it finds. -/
structure Taken (s : Relays) (r : RelayId) (s' : Relays) : Prop where
  inv : PoolInv s'
  found : ∃ relay, s.relays r = some relay ∧ relay.isIdle = true ∧
    s'.relays = Function.update s.relays r (some { relay with isIdle := false })
  buckets : ∀ k, s'.buckets k = (s.buckets k).erase r

/-- An idle relay is taken out of the pool. -/
theorem PoolInv.take (h : PoolInv s) (hr : s.relays r = some relay) (hi : relay.isIdle = true) :
    Taken s r ((s.setRelay r (some { relay with isIdle := false })).unlink r) := by
  generalize hx : ({ relay with isIdle := false } : HttpRelay) = x
  have hxidle : x.isIdle = false := by rw [← hx]
  refine ⟨?_, ⟨relay, hr, hi, by rw [hx]; rfl⟩, fun k => rfl⟩
  have hself : ∀ k, ((s.buckets k).erase r).count r = 0 := by
    intro k
    rw [List.count_erase_self, h.linked r relay hr]
    split_ifs <;> rfl
  constructor
  · constructor
    · intro r' y hy k
      show ((s.buckets k).erase r).count r' = _
      by_cases he : r' = r
      · subst he
        have hy' : Function.update s.relays r' (some x) r' = some y := hy
        rw [Function.update_self] at hy'
        obtain rfl := Option.some.inj hy'
        rw [hself, hxidle, if_neg fun hand => Bool.false_ne_true hand.1]
      · have hy' : Function.update s.relays r (some x) r' = some y := hy
        rw [Function.update_of_ne he] at hy'
        rw [List.count_erase_of_ne he]
        exact h.linked r' y hy' k
    · intro k r' hmem
      have hmem' : r' ∈ (s.buckets k).erase r := hmem
      have he : r' ≠ r := by
        rintro rfl
        exact List.count_eq_zero.mp (hself k) hmem'
      obtain ⟨y, hy, hw⟩ := h.pooled k r' (List.mem_of_mem_erase hmem')
      exact ⟨y, (Function.update_of_ne he _ _).trans hy, hw⟩
  · intro r' hr'
    have hne : r' ≠ r := by
      rintro rfl
      exact absurd (h.lt hr) (Nat.not_lt.mpr hr')
    exact (Function.update_of_ne hne _ _).trans (h.fresh r' hr')

/-- The first relay that serves the host in a bucket, or nothing. -/
theorem PoolInv.findAlive (h : PoolInv s) (host : Bytes) (port : ℤ) {l : List RelayId} {k : ℕ}
    (hl : ∀ r ∈ l, r ∈ s.buckets k) :
    wp (findAlive host port l)
      (fun res s' => (res = none ∧ s' = s ∧
          ∀ r ∈ l, ∀ relay, s.relays r = some relay → relay.serves host port = false) ∨
        ∃ r relay, res = some r ∧ r ∈ l ∧ s.relays r = some relay ∧
          relay.serves host port = true ∧ Taken s r s')
      (fun _ _ => False) s := by
  induction l with
  | nil => exact Or.inl ⟨rfl, rfl, fun r hr => absurd hr List.not_mem_nil⟩
  | cons r l ih =>
    have hmem := hl r List.mem_cons_self
    obtain ⟨relay, hr, -⟩ := h.pooled k r hmem
    have hi := (h.idle hmem hr).1
    simp only [RelayHttp.findAlive, wp_bind, wp_getRelay, hr, wp_ite, wp_putRelay, wp_modify, wp_pure]
    split_ifs with hserves
    · exact Or.inr ⟨r, relay, rfl, List.mem_cons_self, hr, hserves, h.take hr hi⟩
    · refine wp_mono (ih fun r' hr' => hl r' (List.mem_cons_of_mem r hr')) ?_ fun _ _ => id
      rintro res s' (⟨rfl, rfl, hno⟩ | ⟨r', x, rfl, hr', hx, hs, htaken⟩)
      · refine Or.inl ⟨rfl, rfl, fun r' hr' x hx => ?_⟩
        rcases List.mem_cons.mp hr' with rfl | hr'
        · rw [hr] at hx
          obtain rfl := Option.some.inj hx
          exact Bool.not_eq_true _ ▸ hserves
        · exact hno r' hr' x hx
      · exact Or.inr ⟨r', x, rfl, List.mem_cons_of_mem r hr', hx, hs, htaken⟩

/-! ### The functions for the client -/

/-- A relay that is not idle is in no bucket. -/
theorem PoolInv.out (h : PoolInv s) (hr : s.relays r = some relay) (hi : relay.isIdle = false) (k : ℕ) :
    r ∉ s.buckets k := by
  intro hmem
  exact absurd ((h.idle hmem hr).1.symm.trans hi) (by decide)

/-- A relay has been found or made for a caller, and nobody else has it. -/
structure Found (s : Relays) (r : RelayId) (s' : Relays) : Prop where
  inv : PoolInv s'
  before : ∀ relay, s.relays r = some relay → relay.isIdle = true
  after : ∃ relay, s'.relays r = some relay ∧ relay.isIdle = false
  relays : ∀ r', r' ≠ r → s'.relays r' = s.relays r'
  buckets : ∀ k r', r' ≠ r → (s'.buckets k).count r' = (s.buckets k).count r'

theorem Taken.toFound (h : Taken s r s') : Found s r s' := by
  obtain ⟨relay, hr, hi, hrel⟩ := h.found
  refine ⟨h.inv, fun x hx => ?_, ?_, fun r' hne => ?_, fun k r' hne => ?_⟩
  · rw [hr] at hx
    rw [← Option.some.inj hx]
    exact hi
  · rw [hrel]
    exact ⟨_, Function.update_self .., rfl⟩
  · rw [hrel, Function.update_of_ne hne]
  · rw [h.buckets, List.count_erase_of_ne hne]

/-- A new relay is not in the pool. -/
theorem PoolInv.new (h : PoolInv s) (host : Bytes) (port : ℤ) :
    Found s s.nextRelay
      { s.setRelay s.nextRelay (some (newRelay host port)) with nextRelay := s.nextRelay + 1 } := by
  have hnone : s.relays s.nextRelay = none := h.fresh _ (Nat.le_refl _)
  have hout : ∀ k, s.nextRelay ∉ s.buckets k := by
    intro k hmem
    obtain ⟨x, hx, -⟩ := h.pooled k _ hmem
    exact absurd (hx.symm.trans hnone) (Option.some_ne_none x)
  refine ⟨?_, ?_, ⟨newRelay host port, Function.update_self .., rfl⟩, ?_, fun _ _ _ => rfl⟩
  · constructor
    · constructor
      · intro r' x hx k
        show (s.buckets k).count r' = _
        have hx' : Function.update s.relays s.nextRelay (some (newRelay host port)) r' = some x := hx
        by_cases he : r' = s.nextRelay
        · rw [he, Function.update_self] at hx'
          obtain rfl := Option.some.inj hx'
          rw [he, List.count_eq_zero.mpr (hout k)]
          exact (if_neg fun hand => Bool.false_ne_true hand.1).symm
        · rw [Function.update_of_ne he] at hx'
          exact h.linked r' x hx' k
      · intro k r' hmem
        obtain ⟨x, hx, hw⟩ := h.pooled k r' hmem
        have he : r' ≠ s.nextRelay := by
          rintro rfl
          exact hout k hmem
        exact ⟨x, (Function.update_of_ne he _ _).trans hx, hw⟩
    · intro r' hr'
      have hlt : s.nextRelay < r' := hr'
      exact (Function.update_of_ne hlt.ne' _ _).trans (h.fresh r' hlt.le)
  · intro x hx
    exact absurd (hx.symm.trans hnone) (Option.some_ne_none x)
  · exact fun r' hne => Function.update_of_ne hne _ _

/-- The relay that a caller gets is changed for it. -/
theorem Found.handed {s1 s2 : Relays} (h : Found s r s1) {args : ℕ} (hr : s1.relays r = some relay)
    (hrel : s2.relays = Function.update s1.relays r (some relay')) (hb : s2.buckets = s1.buckets)
    (hn : s2.nextRelay = s1.nextRelay) (hs : Stays relay relay') (hargs : relay'.args = some args) :
    PoolInv s2 ∧ Handed s args r s2 := by
  have hinv : PoolInv s2 := (h.inv.stays hr hs).of_eq hrel hb hn
  obtain ⟨x, hx, hi⟩ := h.after
  rw [hr] at hx
  obtain rfl := Option.some.inj hx
  have hself : s2.relays r = some relay' := by
    rw [hrel]
    exact Function.update_self ..
  have hidle : relay'.isIdle = false := hs.isIdle.trans hi
  refine ⟨hinv, h.before, ⟨relay', hself, hidle, hargs⟩, hinv.out hself hidle, ?_, ?_⟩
  · intro r' hne
    rw [hrel, ← h.relays r' hne]
    exact Function.update_of_ne hne _ _
  · intro k r' hne
    rw [hb]
    exact h.buckets k r' hne

/-- The rest of `relay_create`, when the relay has been found or made. -/
def relayCreateRest (args : ℕ) (r : RelayId) : RelayM RelayId := do
  let relay ← getRelay r
  let relay := { relay with args := some args }
  if relay.relayStatus = .connected then
    match relay.conn with
    | none => throw .nullConn
    | some conn =>
      let t := (← get).nextTimer
      putRelay r { relay with
        conn := some (conn.enable { read := true }), tmrConnected := some t }
      modify (·.addTimer { callback := .connected, relay := r })
  else putRelay r relay
  return r

/-- **`relay_create`** hands out a relay that nobody has, and takes it out of the pool before that. -/
theorem PoolInv.create (h : PoolInv s) (host : Bytes) (port : ℤ) (args : ℕ) :
    wp (relayCreate host port args) (fun r s' => PoolInv s' ∧ Handed s args r s')
      (fun _ _ => True) s := by
  -- what is left when the relay has been found or made
  have hrest : ∀ r s1, Found s r s1 →
      wp (relayCreateRest args r)
        (fun r s' => PoolInv s' ∧ Handed s args r s') (fun _ _ => True) s1 := by
    intro r s1 hf
    obtain ⟨relay, hr, -⟩ := hf.after
    simp only [relayCreateRest, wp_bind, wp_getRelay, hr, wp_ite, wp_pure, wp_putRelay]
    split_ifs
    · cases hconn : relay.conn with
      | none => trivial
      | some conn =>
        simp only [wp_bind, wp_get, wp_putRelay, wp_modify]
        refine hf.handed hr rfl rfl rfl ⟨rfl, rfl, ?_, rfl⟩ rfl
        rw [hconn]
        rfl
    · exact hf.handed hr rfl rfl rfl ⟨rfl, rfl, rfl, rfl⟩ rfl
  simp only [relayCreateRest, relayCreate, relaySysFindAliveRelay, wp_bind, wp_get] at hrest ⊢
  refine wp_mono (h.findAlive host port fun _ hr => hr) ?_ fun _ _ => False.elim
  rintro res s1 (⟨rfl, rfl, -⟩ | ⟨r, -, rfl, -, -, -, htaken⟩)
  · simp only [wp_bind, wp_get, wp_modify, wp_pure]
    exact hrest _ _ (h.new host port)
  · dsimp only
    rw [wp_bind, wp_pure, wp_bind]
    exact hrest r s1 htaken.toFound

/-- A function of the connection. -/
theorem PoolInv.conn (h : PoolInv s) (r : RelayId) (f : Conn → Conn) :
    KeepsPool s (updateConn r f) := by
  unfold KeepsPool
  simp only [updateConn, wp_bind, wp_getRelay]
  cases hr : s.relays r with
  | none => trivial
  | some relay =>
    dsimp only
    cases hconn : relay.conn with
    | none => trivial
    | some conn =>
      refine h.stays hr ⟨rfl, rfl, ?_, rfl⟩
      rw [hconn]
      rfl

theorem KeepsPool.bind {α β : Type} {x : RelayM α} {f : α → RelayM β} (hx : KeepsPool s x)
    (hf : ∀ a s', PoolInv s' → KeepsPool s' (f a)) : KeepsPool s (x >>= f) := by
  unfold KeepsPool at hx hf ⊢
  rw [wp_bind]
  exact wp_mono hx (fun a s' h => hf a s' h) fun _ _ => id

/-- A relay changes in its place. -/
theorem PoolInv.modifyRelay (h : PoolInv s) (r : RelayId) {f : HttpRelay → HttpRelay}
    (hf : ∀ relay, Stays relay (f relay)) :
    KeepsPool s (getRelay r >>= fun relay => putRelay r (f relay)) := by
  unfold KeepsPool
  simp only [wp_bind, wp_getRelay, wp_putRelay]
  cases hr : s.relays r with
  | none => trivial
  | some relay => exact h.stays hr (hf relay)

theorem PoolInv.sendRequest (h : PoolInv s) (r : RelayId) (header : Header) :
    KeepsPool s (relaySendRequest r header) := by
  unfold KeepsPool
  simp only [relaySendRequest, wp_bind, wp_getRelay, wp_ite, wp_putRelay, wp_modify]
  cases hr : s.relays r with
  | none => trivial
  | some relay =>
    dsimp only
    split_ifs
    · have h1 : PoolInv (s.setRelay r (some { relay with
          requests := relay.requests ++ [header], relayStatus := .connected })) :=
        h.stays hr ⟨rfl, rfl, rfl, rfl⟩
      exact h1.of_eq rfl rfl rfl
    · cases requestHead header with
      | none => trivial
      | some buf =>
        have h1 : PoolInv (s.setRelay r (some { relay with
            requests := relay.requests ++ [header]
            isChunkPost := relay.isChunkPost || chunkedPost header })) :=
          h.stays hr ⟨rfl, rfl, rfl, rfl⟩
        have hwrite := (h1.conn r (·.write buf)).bind fun _ s' h' =>
          h'.modifyRelay r (f := fun relay => { relay with relayStatus := .requestSent })
            fun _ => ⟨rfl, rfl, rfl, rfl⟩
        unfold KeepsPool at hwrite
        simp only [wp_bind, wp_getRelay, wp_putRelay] at hwrite ⊢
        exact hwrite

theorem PoolInv.writeBody (h : PoolInv s) (r : RelayId) (data : Bytes) :
    KeepsPool s (relayWriteBody r data) := by
  unfold KeepsPool
  simp only [relayWriteBody, wp_bind, wp_getRelay, wp_ite, wp_pure]
  cases hr : s.relays r with
  | none => trivial
  | some relay =>
    dsimp only
    split_ifs
    · have hwrites : KeepsPool s (do
          writeConn r (chunkSizeLine data.length)
          writeConn r data
          writeConn r crlf) :=
        (h.conn r _).bind fun _ s1 h1 => (h1.conn r _).bind fun _ s2 h2 => h2.conn r _
      unfold KeepsPool at hwrites
      simp only [wp_bind] at hwrites
      exact hwrites
    · exact h.conn r _

theorem PoolInv.completeRequest (h : PoolInv s) (r : RelayId) :
    KeepsPool s (relayCompleteRequest r) := by
  unfold KeepsPool
  simp only [relayCompleteRequest, wp_bind, wp_getRelay, wp_ite, wp_pure]
  cases hr : s.relays r with
  | none => trivial
  | some relay =>
    dsimp only
    split_ifs
    · exact h.conn r _
    · exact h

/-- Whatever the client calls. -/
theorem PoolInv.clientCall (h : PoolInv s) (c : ClientCall) : KeepsPool s (clientCall c) := by
  cases c with
  | create host port args =>
    unfold KeepsPool
    simp only [RelayHttp.clientCall, wp_bind, wp_pure]
    exact wp_mono (h.create host port args) (fun _ _ h' => h'.1) fun _ _ => id
  | sendRequest r header => exact h.sendRequest r header
  | writeBody r data => exact h.writeBody r data
  | completeRequest r => exact h.completeRequest r
  | close r => exact h.freeAny r
  | suspendRead r => exact h.conn r _
  | resumeRead r => exact h.conn r _

/-! ### Events -/

/-- What is left to do is not part of the pool. -/
theorem PoolInv.tasks (h : PoolInv s) (r : RelayId) (tasks : List Task) :
    PoolInv (s.setTasks r tasks) := h.of_eq rfl rfl rfl

/-- Neither are the timers. -/
theorem PoolInv.timer (h : PoolInv s) (t : TmrId) (tm : Option Tmr) : PoolInv (s.setTimer t tm) :=
  h.of_eq rfl rfl rfl

theorem PoolInv.callback (h : PoolInv s) (r : RelayId) (what : RelayWhat) :
    KeepsPool s (callback r what) := by
  unfold KeepsPool
  simp only [RelayHttp.callback, wp_bind, wp_getRelay, wp_modify]
  cases s.relays r with
  | none => trivial
  | some relay => exact h.of_eq rfl rfl rfl

/-- A relay in the pool has a connection. -/
theorem PoolInv.wired (h : PoolInv s) (hr : s.relays r = some relay) (hi : relay.isIdle = true) :
    relay.conn.isSome = true ∧ relay.dnsReq = false := by
  obtain ⟨x, hx, hw⟩ := h.pooled _ r (h.mem hr hi)
  rw [hr] at hx
  rw [Option.some.inj hx]
  exact hw

/-- The connection is gone: an idle relay goes with it. -/
theorem PoolInv.handleConnErr (h : PoolInv s) (r : RelayId) : KeepsPool s (relayHandleConnErr r) := by
  unfold KeepsPool
  simp only [relayHandleConnErr, wp_bind, wp_getRelay, wp_putRelay, wp_ite]
  cases hr : s.relays r with
  | none => trivial
  | some relay =>
    dsimp only
    split_ifs with hi
    · exact h.free hr rfl rfl rfl rfl
    · have h1 : PoolInv (s.setRelay r (some { relay with conn := none })) :=
        h.setRelay hr rfl rfl fun hi' => absurd hi' hi
      rw [wp_modify]
      exact (h1.tasks r [.free]).callback r (connErrWhat relay)

theorem PoolInv.updateHeader (h : PoolInv s) (r : RelayId) (f : Header → Option Header) :
    KeepsPool s (updateHeader r f) := by
  unfold KeepsPool
  simp only [RelayHttp.updateHeader, wp_bind, wp_getRelay]
  cases hr : s.relays r with
  | none => trivial
  | some relay =>
    dsimp only
    cases relay.responseHeader.bind f with
    | none => trivial
    | some x => exact h.stays hr ⟨rfl, rfl, rfl, rfl⟩

/-- The parser calls back, in whatever order. -/
theorem PoolInv.parserCall (h : PoolInv s) (r : RelayId) (tasks : List Task) (c : ParserCall) :
    KeepsPool s (parserCall r tasks c) := by
  cases c with
  | messageBegin => exact h.modifyRelay r fun _ => ⟨rfl, rfl, rfl, rfl⟩
  | statusComplete code => exact h.updateHeader r _
  | url data => exact h.updateHeader r _
  | headerField data => exact h.updateHeader r _
  | headerValue data => exact h.updateHeader r _
  | headersComplete =>
    have hset : ∀ s', PoolInv s' → KeepsPool s' (do
        let relay ← getRelay r
        putRelay r { relay with relayStatus := .connected }
        RelayHttp.callback r .headerComplete) := by
      intro s' h'
      have hput := (h'.modifyRelay r (f := fun relay => { relay with relayStatus := .connected })
        fun _ => ⟨rfl, rfl, rfl, rfl⟩).bind fun _ _ h'' => h''.callback r .headerComplete
      unfold KeepsPool at hput ⊢
      simp only [wp_bind] at hput ⊢
      exact hput
    exact (h.updateHeader r headerAppendComplete).bind fun _ s' h' => hset s' h'
  | body data => exact h.callback r .body
  | messageComplete =>
    have hcall : ∀ s', PoolInv s' → KeepsPool s' (do
        modify (·.setTasks r (.reuse :: tasks))
        RelayHttp.callback r .msgComplete) :=
      fun s' h' => (h'.tasks r (.reuse :: tasks)).callback r .msgComplete
    have hput := (h.modifyRelay r (f := fun relay => { relay with relayStatus := .connected })
      fun _ => ⟨rfl, rfl, rfl, rfl⟩).bind fun _ => hcall
    unfold KeepsPool at hput ⊢
    simp only [RelayHttp.parserCall, wp_bind, wp_modify] at hput ⊢
    exact hput

/-- A task. -/
theorem PoolInv.runTask (h : PoolInv s) (r : RelayId) (tasks : List Task) (task : Task) :
    KeepsPool s (runTask r tasks task) := by
  cases task with
  | call c => exact h.parserCall r tasks c
  | reuse => exact h.reuse r
  | enableRead => exact h.conn r _
  | readEnd ok =>
    unfold KeepsPool
    simp only [RelayHttp.runTask, wp_bind, wp_getRelay, wp_ite, wp_modify, wp_pure]
    cases hr : s.relays r with
    | none => trivial
    | some relay =>
      dsimp only
      split_ifs
      · exact (h.tasks r _).callback r _
      · exact h.freeAny r
      · exact h
  | free => exact h.freeAny r

theorem PoolInv.next (h : PoolInv s) : KeepsPool s next := by
  unfold KeepsPool
  simp only [RelayHttp.next, wp_bind, wp_get]
  match s.handling with
  | none => exact h
  | some (_, []) => exact h.of_eq rfl rfl rfl
  | some (r, task :: tasks) =>
    simp only [wp_bind, wp_modify]
    exact (h.tasks r tasks).runTask r tasks task

/-- The name of a host has been looked up: such a relay is not idle. -/
theorem PoolInv.dnsResolved (h : PoolInv s) (r : RelayId) (ok : Bool) :
    KeepsPool s (relayDnsResolved r ok) := by
  unfold KeepsPool
  simp only [relayDnsResolved, wp_bind, wp_getRelay, wp_ite, wp_pure, wp_putRelay, wp_modify]
  cases hr : s.relays r with
  | none => trivial
  | some relay =>
    dsimp only
    split_ifs with hdns
    · exact h
    · have hi : relay.isIdle = true → False := by
        intro hi
        exact hdns (by rw [(h.wired hr hi).2]; rfl)
      exact h.setRelay hr rfl rfl fun hi' => (hi hi').elim
    · have hi : relay.isIdle = true → False := by
        intro hi
        exact hdns (by rw [(h.wired hr hi).2]; rfl)
      have h1 : PoolInv (s.setRelay r (some { relay with dnsReq := false })) :=
        h.setRelay hr rfl rfl fun hi' => (hi hi').elim
      exact (h1.tasks r _).callback r _

/-- The connection of a relay is there. -/
theorem PoolInv.writable (h : PoolInv s) (r : RelayId) : KeepsPool s (relayWritable r) := by
  unfold KeepsPool
  simp only [relayWritable, wp_bind, wp_getRelay, wp_ite, wp_pure, wp_putRelay, wp_modify]
  cases hr : s.relays r with
  | none => trivial
  | some relay =>
    dsimp only
    split_ifs
    · exact h
    · exact h
    · have h1 : PoolInv (s.setRelay r (some { relay with connected := true })) :=
        h.stays hr ⟨rfl, rfl, rfl, rfl⟩
      exact (h1.tasks r _).callback r _

theorem PoolInv.readable (h : PoolInv s) (r : RelayId) (res : Option (List ParserCall × Bool)) :
    KeepsPool s (relayReadable r res) := by
  unfold KeepsPool
  simp only [relayReadable, wp_bind, wp_getRelay, wp_ite, wp_pure]
  cases s.relays r with
  | none => trivial
  | some relay =>
    dsimp only
    by_cases hread : (!relay.conn.any (·.detect.read)) = true
    · rw [if_pos hread]
      exact h
    · rw [if_neg hread]
      match res with
      | none => exact h.handleConnErr r
      | some (calls, ok) =>
        simp only [wp_ite, wp_modify]
        split_ifs
        · exact h.handleConnErr r
        · exact h.tasks r _

theorem PoolInv.connError (h : PoolInv s) (r : RelayId) : KeepsPool s (relayConnError r) := by
  unfold KeepsPool
  simp only [relayConnError, wp_bind, wp_getRelay, wp_ite, wp_pure]
  cases s.relays r with
  | none => trivial
  | some relay =>
    dsimp only
    split_ifs
    · exact h
    · exact h.handleConnErr r

theorem PoolInv.connTmrcb (h : PoolInv s) (r : RelayId) : KeepsPool s (relayConnTmrcb r) := by
  unfold KeepsPool
  simp only [relayConnTmrcb, wp_bind, wp_getRelay]
  cases hr : s.relays r with
  | none => trivial
  | some relay =>
    have h1 : PoolInv (s.setRelay r (some { relay with tmrConnected := none })) :=
      h.stays hr ⟨rfl, rfl, rfl, rfl⟩
    dsimp only
    cases relay.tmrConnected with
    | none => exact (h1.tasks r _).callback r _
    | some t =>
      have h2 : PoolInv ((s.setTimer t none).setRelay r (some { relay with tmrConnected := none })) :=
        h1.of_eq rfl rfl rfl
      exact (h2.tasks r _).callback r _

theorem PoolInv.timerFires (h : PoolInv s) (t : TmrId) (calls : List ParserCall) :
    KeepsPool s (timerFires t calls) := by
  unfold KeepsPool
  simp only [RelayHttp.timerFires, wp_bind, wp_get]
  cases s.timers t with
  | none => exact h
  | some tm =>
    have h1 : PoolInv (s.setTimer t none) := h.timer t none
    simp only [wp_bind, wp_modify]
    cases tm.callback with
    | connected => exact h1.connTmrcb tm.relay
    | response =>
      simp only [wp_bind, wp_getRelay, wp_modify]
      cases (s.setTimer t none).relays tm.relay with
      | none => trivial
      | some relay => exact h1.tasks tm.relay _

/-- Whatever happens to a relay. -/
theorem PoolInv.relayEvent (h : PoolInv s) (e : RelayEvent) : KeepsPool s (relayEvent e) := by
  -- an event of a relay that does not exist does not happen
  have hguard : ∀ r x, KeepsPool s x → KeepsPool s (do
      if ((← get).relays r).isSome then x else pure ()) := by
    intro r x hx
    unfold KeepsPool at hx ⊢
    simp only [wp_bind, wp_get, wp_ite, wp_pure]
    split_ifs
    · exact hx
    · exact h
  cases e with
  | dnsResolved r ok => exact hguard r _ (h.dnsResolved r ok)
  | writable r => exact hguard r _ (h.writable r)
  | readable r res => exact hguard r _ (h.readable r res)
  | connError r => exact hguard r _ (h.connError r)
  | timer t calls => exact h.timerFires t calls

/-- One step. -/
theorem PoolInv.step (h : PoolInv s) (i : RelayInput) : KeepsPool s (relayStep i) := by
  unfold KeepsPool
  simp only [relayStep, wp_bind, wp_get]
  cases i with
  | call c =>
    simp only [wp_ite, wp_pure]
    split_ifs
    · exact h.clientCall c
    · exact h
  | event e =>
    simp only [wp_ite, wp_pure]
    split_ifs
    · exact h.relayEvent e
    · exact h
  | next =>
    simp only [wp_ite, wp_pure]
    split_ifs
    · exact h
    · exact h.next
  | ret => exact h.of_eq rfl rfl rfl

/-! ### Every run -/

theorem wp_run_poolInv (is : List RelayInput) :
    wp (run relayStep is) (fun _ => PoolInv) (fun _ _ => True) Relays.init :=
  run_wp (fun _ i h _ => PoolInv.step h i) is Relays.init poolInv_init (meets_true is Relays.init)

/-- **The pool is in order in every state of every run, and a relay from it goes to one caller.** -/
theorem wp_run_poolOk (is : List RelayInput) :
    wp (run relayStep is)
      (fun _ s => PoolOk s ∧ ∀ host port args,
        wp (relayCreate host port args) (fun r s' => Handed s args r s') (fun _ _ => True) s)
      (fun _ _ => True) Relays.init := by
  refine wp_mono (wp_run_poolInv is) (fun _ s h => ⟨h.toPoolOk, fun host port args => ?_⟩)
    fun _ _ => id
  exact wp_mono (h.create host port args) (fun _ _ h' => h'.2) fun _ _ => id

/-! ### Letter case -/

/-- The capital letters of a host. -/
def capitals (host : Bytes) : ℕ := host.countP fun c => 65 ≤ c ∧ c ≤ 90

/-- `tolower` adds 32 to a capital letter. -/
theorem charToU32_tolower (c : UInt8) :
    charToU32 (tolower c) = charToU32 c + if 65 ≤ c ∧ c ≤ 90 then 32 else 0 := by
  unfold tolower
  split_ifs with hc
  · have h1 : 65 ≤ c.toNat := UInt8.le_iff_toNat_le.mp hc.1
    have h2 : c.toNat ≤ 90 := UInt8.le_iff_toNat_le.mp hc.2
    have hadd : (c + 32).toNat = c.toNat + 32 := by
      rw [UInt8.toNat_add]
      show (c.toNat + 32) % 256 = _
      omega
    have hlt : c < 128 := UInt8.lt_iff_toNat_lt.mpr (show c.toNat < 128 by omega)
    have hlt' : c + 32 < 128 :=
      UInt8.lt_iff_toNat_lt.mpr (show (c + 32).toNat < 128 by omega)
    rw [charToU32, charToU32, if_pos hlt, if_pos hlt', hadd]
  · rfl

/-- The sum of the characters before it is reduced. -/
def charSum (host : Bytes) : ℕ := (host.map charToU32).sum

theorem charSum_tolower (host : Bytes) :
    charSum (host.map tolower) = charSum host + 32 * capitals host := by
  unfold charSum capitals
  induction host with
  | nil => rfl
  | cons c host ih =>
    rw [List.map_cons, List.map_cons, List.sum_cons, ih, List.map_cons, List.sum_cons,
      List.countP_cons, charToU32_tolower]
    simp only [decide_eq_true_eq]
    split_ifs <;> omega

/-- The `uint32_t` wraps around at a multiple of the number of buckets. -/
theorem relayCountHash_eq (host : Bytes) :
    relayCountHash host = charSum host % IDLE_RELAY_BUCKET_COUNT := by
  have hfold : ∀ (l : Bytes) (acc : ℕ),
      l.foldl (fun res c => (res + charToU32 c) % 2 ^ 32) acc % IDLE_RELAY_BUCKET_COUNT =
        (acc + charSum l) % IDLE_RELAY_BUCKET_COUNT := by
    intro l
    induction l with
    | nil => intro acc; rfl
    | cons c l ih =>
      intro acc
      have hsum : charSum (c :: l) = charToU32 c + charSum l := List.sum_cons
      rw [List.foldl_cons, ih, hsum]
      unfold IDLE_RELAY_BUCKET_COUNT
      omega
  rw [relayCountHash, hfold, Nat.zero_add]

/-- **Two spellings of a host are in one bucket** iff they have as many capital letters, modulo 16. -/
theorem relayCountHash_eq_iff {a b : Bytes} (h : strcasecmp a b = true) :
    relayCountHash a = relayCountHash b ↔ capitals a % 16 = capitals b % 16 := by
  have heq : a.map tolower = b.map tolower := by
    rw [← beq_iff_eq]
    exact h
  have hsum : charSum a + 32 * capitals a = charSum b + 32 * capitals b := by
    rw [← charSum_tolower, ← charSum_tolower, heq]
  rw [relayCountHash_eq, relayCountHash_eq]
  unfold IDLE_RELAY_BUCKET_COUNT
  omega

/-- An idle relay serves the host and the port. -/
def IdleServes (s : Relays) (host : Bytes) (port : ℤ) (relay : HttpRelay) : Prop :=
  (∃ r, s.relays r = some relay) ∧ relay.isIdle = true ∧ relay.serves host port = true

/-- `relay_sys_find_alive_relay` returns a relay iff an idle one serves the host and the port. -/
def FindsAlive (s : Relays) (host : Bytes) (port : ℤ) : Prop :=
  wp (relaySysFindAliveRelay host port)
    (fun res _ => res.isSome = true ↔ ∃ relay, IdleServes s host port relay) (fun _ _ => False) s

/-- If idle relays serve the host, then one of them spells it with as many capital letters, modulo 16. -/
def SpelledAlike (s : Relays) (host : Bytes) (port : ℤ) : Prop :=
  (∃ relay, IdleServes s host port relay) →
    ∃ relay, IdleServes s host port relay ∧ capitals relay.host % 16 = capitals host % 16

theorem PoolInv.findsAlive_iff (h : PoolInv s) (host : Bytes) (port : ℤ) :
    FindsAlive s host port ↔ SpelledAlike s host port := by
  have hcase : ∀ relay : HttpRelay, relay.serves host port = true →
      strcasecmp relay.host host = true := by
    intro relay hs
    exact ((Bool.and_eq_true _ _).mp hs).1
  have hfind : wp (relaySysFindAliveRelay host port) _ _ s :=
    h.findAlive host port (l := s.buckets (relayCountHash host)) fun _ hr => hr
  obtain ⟨res, s1, hrun, hres⟩ := eq_ok_of_wp hfind
  rw [FindsAlive, wp_of_ok hrun, SpelledAlike]
  rcases hres with ⟨rfl, -, hno⟩ | ⟨r, relay, rfl, hmem, hr, hserves, -⟩
  · -- what serves the host with this number of capital letters would have been found
    have hnone : ¬∃ relay, IdleServes s host port relay ∧
        capitals relay.host % 16 = capitals host % 16 := by
      rintro ⟨relay, ⟨⟨r, hr⟩, hi, hserves⟩, hcap⟩
      have hmem := h.mem hr hi
      rw [(relayCountHash_eq_iff (hcase relay hserves)).mpr hcap] at hmem
      exact absurd hserves (by rw [hno r hmem relay hr]; exact Bool.false_ne_true)
    constructor
    · intro hiff hex
      exact absurd (hiff.mpr hex) Bool.false_ne_true
    · intro himp
      exact ⟨fun hsome => absurd hsome Bool.false_ne_true, fun hex => absurd (himp hex) hnone⟩
  · obtain ⟨hi, hhash⟩ := h.idle hmem hr
    have hex : IdleServes s host port relay := ⟨⟨r, hr⟩, hi, hserves⟩
    have hcap := (relayCountHash_eq_iff (hcase relay hserves)).mp hhash.symm
    exact ⟨fun _ _ => ⟨relay, hex, hcap⟩, fun _ => ⟨fun _ => ⟨relay, hex⟩, fun _ => rfl⟩⟩

/-- **A relay is found in every state of every run iff its host is spelled alike.** -/
theorem wp_run_findsAlive_iff (is : List RelayInput) :
    wp (run relayStep is)
      (fun _ s => ∀ host port, FindsAlive s host port ↔ SpelledAlike s host port)
      (fun _ _ => True) Relays.init :=
  wp_mono (wp_run_poolInv is) (fun _ _ h host port => h.findsAlive_iff host port) fun _ _ => id

/-- The calls of the parser for `HTTP/1.1 200 OK` with `Content-Length: 0`. -/
def emptyResponseCalls : List ParserCall :=
  [.messageBegin, .statusComplete 200, .headerField (bytes "Content-Length"),
    .headerValue (bytes "0"), .headersComplete, .messageComplete]

/-- A request and its complete response on a new connection. -/
def servedOnce (host : Bytes) (port : ℤ) (header : Header) : List RelayInput :=
  [.call (.create host port 1), .event (.dnsResolved 0 true), .event (.writable 0),
    .call (.sendRequest 0 header), .ret, .next, .next,
    .event (.readable 0 (some (emptyResponseCalls, true))),
    .next, .next, .next, .next, .next, .ret, .next, .ret, .next, .next, .next]

/-- The pool has a relay for `A.org`, and none is found for `a.org`. -/
theorem not_always_findsAlive : ¬∀ is : List RelayInput,
    wp (run relayStep is) (fun _ s => ∀ host port, FindsAlive s host port) (fun _ _ => True)
      Relays.init := by
  intro hall
  have hrun : wp (run relayStep
        (servedOnce (bytes "A.org") 80 { method := bytes "GET", url := some (bytes "/") }))
      (fun _ s => wp (relaySysFindAliveRelay (bytes "a.org") 80) (fun res _ => res = none)
          (fun _ _ => False) s ∧
        (s.relays 0).any (fun relay => relay.isIdle && relay.serves (bytes "a.org") 80) = true)
      (fun _ _ => False) Relays.init := by decide +kernel
  obtain ⟨-, s, ⟨hnone, hidle⟩, hfinds⟩ := exists_of_wp (wp_mono (wp_and hrun (hall _))
    (fun _ _ h => h) fun _ _ h => h.1)
  obtain ⟨res, -, hres, hiff⟩ := exists_of_wp (wp_mono (wp_and hnone (hfinds (bytes "a.org") 80))
    (fun _ _ h => h) fun _ _ h => h.1)
  obtain ⟨relay, hr, hserves⟩ := (Option.any_eq_true _ _).mp hidle
  rw [Bool.and_eq_true] at hserves
  have hsome := hiff.mpr ⟨relay, ⟨0, hr⟩, hserves⟩
  rw [hres] at hsome
  exact Bool.false_ne_true hsome

end H2ClientProxy.RelayHttp
