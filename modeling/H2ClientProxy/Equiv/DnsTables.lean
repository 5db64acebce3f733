import H2ClientProxy.Dns
import H2ClientProxy.Lib.Buckets
import Mathlib.Order.Basic
import Mathlib.Order.Defs.LinearOrder

/-!
# The tables of the resolver

`s_hash` holds the pending queries and `s_cache_hash` the cached hosts.  Nothing checks that a host is
in at most one of them, and at most once; it follows from the order of the lookups in `dns_resolve` and
from the order of the updates when a query is answered.

* `Tables`: the invariant, with one lemma for each update of the tables.
* `OnePerHost`: what it means for the lookups.
-/

namespace H2ClientProxy.Dns

open Wp Machine Ep

variable {d d' : Resolver}

/-! ### Symbolic execution -/

section Wp

variable {E : DnsFault → Resolver → Prop}

@[simp]
theorem wp_getReq (r : ReqId) {Q : DnsReq → Resolver → Prop} :
    wp (getReq r) Q E = fun d =>
      match d.reqs r with
      | some req => Q req d
      | none => E (.reqFreed r) d := by
  funext d
  simp only [getReq, wp_bind, wp_get]
  cases d.reqs r <;> rfl

@[simp]
theorem wp_getReal (R : RealId) {Q : RealReq → Resolver → Prop} :
    wp (getReal R) Q E = fun d =>
      match d.realReqs R with
      | some real => Q real d
      | none => E (.realFreed R) d := by
  funext d
  simp only [getReal, wp_bind, wp_get]
  cases d.realReqs R <;> rfl

/-- A call of `ep.c` is specified by its effect on the event base. -/
theorem wp_liftEp {α : Type} (x : EpM α) {Q : α → Resolver → Prop} :
    wp (liftEp x) Q E = fun d =>
      wp x (fun a b => Q a (d.setEp b)) (fun e b => E (.ep e) (d.setEp b)) d.ep := by
  funext d
  unfold wp liftEp
  cases x d.ep <;> rfl

end Wp

/-! ### The invariant -/

/-- The host of a query. -/
def hostOf (d : Resolver) (R : RealId) : Bytes := ((d.realReqs R).map RealReq.host).getD []

/-- The queries in `s_hash` are the live ones; both tables are in order; and no host of a query is in
the cache. -/
structure Tables (d : Resolver) : Prop where
  live : ∀ k, ∀ R ∈ d.sHash k, ∃ real, d.realReqs R = some real
  listed : ∀ R real, d.realReqs R = some real → R ∈ d.sHash (dnsHashStr real.host)
  fresh : ∀ R, d.nextReal ≤ R → d.realReqs R = none
  hash : Buckets.Ok (hostOf d) dnsHashStr d.sHash
  cache : Buckets.Ok CacheRecord.host dnsHashCacheStr d.sCacheHash
  disjoint : ∀ R real, d.realReqs R = some real → ∀ k, ∀ record ∈ d.sCacheHash k,
    record.host ≠ real.host

theorem hostOf_eq {R : RealId} {real : RealReq} (h : d.realReqs R = some real) :
    hostOf d R = real.host := by
  rw [hostOf, h]
  rfl

/-- `dns_real_req_find` looks for the host of a query. -/
theorem Tables.find_pred (h : Tables d) (host : Bytes) :
    ∀ R ∈ d.sHash (dnsHashStr host),
      (d.realReqs R).any (fun real => decide (real.host = host)) = decide (hostOf d R = host) := by
  intro R hR
  obtain ⟨real, hreal⟩ := h.live _ R hR
  rw [hreal, hostOf_eq hreal]
  rfl

/-- `dns_real_req_find` finds the query for a host. -/
theorem Tables.realReqFind_eq_some_iff (h : Tables d) (host : Bytes) (R : RealId) :
    dnsRealReqFind d host = some R ↔ ∃ real, d.realReqs R = some real ∧ real.host = host := by
  rw [dnsRealReqFind, h.hash.find?_eq_some_iff (h.find_pred host)]
  constructor
  · rintro ⟨⟨k, hR⟩, hhost⟩
    obtain ⟨real, hreal⟩ := h.live k R hR
    exact ⟨real, hreal, (hostOf_eq hreal).symm.trans hhost⟩
  · rintro ⟨real, hreal, rfl⟩
    exact ⟨⟨_, h.listed R real hreal⟩, hostOf_eq hreal⟩

theorem Tables.realReqFind_eq_none_iff (h : Tables d) (host : Bytes) :
    dnsRealReqFind d host = none ↔ ∀ R real, d.realReqs R = some real → real.host ≠ host := by
  constructor
  · intro hnone R real hreal hhost
    have hsome := (h.realReqFind_eq_some_iff host R).mpr ⟨real, hreal, hhost⟩
    rw [hnone] at hsome
    exact Option.some_ne_none R hsome.symm
  · intro hnot
    cases hfind : dnsRealReqFind d host with
    | none => rfl
    | some R =>
      obtain ⟨real, hreal, hhost⟩ := (h.realReqFind_eq_some_iff host R).mp hfind
      exact absurd hhost (hnot R real hreal)

theorem Tables.cacheFind_eq_some_iff (h : Tables d) (host : Bytes) (record : CacheRecord) :
    dnsCacheFind d host = some record ↔ (∃ k, record ∈ d.sCacheHash k) ∧ record.host = host :=
  h.cache.find?_eq_some_iff fun _ _ => rfl

theorem Tables.cacheFind_eq_none_iff (h : Tables d) (host : Bytes) :
    dnsCacheFind d host = none ↔ ∀ k, ∀ record ∈ d.sCacheHash k, record.host ≠ host :=
  h.cache.find?_eq_none_iff fun _ _ => rfl

/-- Two queries for the same host are the same. -/
theorem Tables.real_unique (h : Tables d) {R R' : RealId} {real real' : RealReq}
    (hR : d.realReqs R = some real) (hR' : d.realReqs R' = some real')
    (hhost : real.host = real'.host) : R = R' := by
  refine h.hash.unique (h.listed R real hR) (h.listed R' real' hR') ?_
  rw [hostOf_eq hR, hostOf_eq hR', hhost]

/-! ### The updates -/

/-- What is not part of the tables does not matter. -/
theorem Tables.of_eq (h : Tables d) (h1 : d'.realReqs = d.realReqs) (h2 : d'.nextReal = d.nextReal)
    (h3 : d'.sHash = d.sHash) (h4 : d'.sCacheHash = d.sCacheHash) : Tables d' where
  live := by rw [h1, h3]; exact h.live
  listed := by rw [h1, h3]; exact h.listed
  fresh := by rw [h1, h2]; exact h.fresh
  hash := by
    rw [h3]
    refine h.hash.congr fun k R _ => ?_
    rw [hostOf, hostOf, h1]
  cache := by rw [h4]; exact h.cache
  disjoint := by rw [h1, h4]; exact h.disjoint

/-- A query keeps its host. -/
theorem Tables.setReal (h : Tables d) {R : RealId} {real real' : RealReq}
    (hR : d.realReqs R = some real) (hhost : real'.host = real.host) : Tables (d.setReal R real') where
  live := by
    intro k R' hR'
    rw [Resolver.setReal_realReqs, Function.update_apply]
    split_ifs
    · exact ⟨real', rfl⟩
    · exact h.live k R' hR'
  listed := by
    intro R' x hx
    rw [Resolver.setReal_realReqs, Function.update_apply] at hx
    split_ifs at hx with he
    · rw [Option.some.injEq] at hx
      rw [he, ← hx, hhost]
      exact h.listed R real hR
    · exact h.listed R' x hx
  fresh := by
    intro R' hR'
    have hne : R' ≠ R := by
      rintro rfl
      exact absurd (h.fresh R' hR') (by rw [hR]; exact Option.some_ne_none real)
    rw [Resolver.setReal_realReqs, Function.update_of_ne hne]
    exact h.fresh R' hR'
  hash := by
    refine h.hash.congr fun k R' _ => ?_
    rw [hostOf, Resolver.setReal_realReqs, Function.update_apply]
    split_ifs with he
    · rw [he, hostOf_eq hR]
      exact hhost
    · rfl
  cache := h.cache
  disjoint := by
    intro R' x hx
    rw [Resolver.setReal_realReqs, Function.update_apply] at hx
    split_ifs at hx with he
    · rw [Option.some.injEq] at hx
      rw [← hx, hhost]
      exact h.disjoint R real hR
    · exact h.disjoint R' x hx

/-- A query for a new host. -/
theorem Tables.addReal (h : Tables d) {host : Bytes} {real : RealReq} (hhost : real.host = host)
    (hcache : dnsCacheFind d host = none) (hfind : dnsRealReqFind d host = none) :
    Tables (d.addReal real (dnsHashStr host)) := by
  subst hhost
  have hnone := (h.realReqFind_eq_none_iff real.host).mp hfind
  have hnew : d.realReqs d.nextReal = none := h.fresh _ (Nat.le_refl _)
  have hnotin : ∀ k, d.nextReal ∉ d.sHash k := by
    intro k hk
    obtain ⟨x, hx⟩ := h.live k _ hk
    rw [hnew] at hx
    exact Option.some_ne_none x hx.symm
  -- the keys of the old entries are the same
  have hkey : ∀ R, R ≠ d.nextReal →
      hostOf (d.addReal real (dnsHashStr real.host)) R = hostOf d R := by
    intro R hne
    rw [hostOf, Resolver.addReal_realReqs, Function.update_of_ne hne, hostOf]
  have hself : hostOf (d.addReal real (dnsHashStr real.host)) d.nextReal = real.host := by
    rw [hostOf, Resolver.addReal_realReqs, Function.update_self]
    rfl
  have hold : Buckets.Ok (hostOf (d.addReal real (dnsHashStr real.host))) dnsHashStr d.sHash :=
    h.hash.congr fun k R hR => hkey R fun he => hnotin k (he ▸ hR)
  constructor
  · -- `live`
    intro k R hR
    rw [Resolver.addReal_realReqs, Function.update_apply]
    split_ifs with he
    · exact ⟨real, rfl⟩
    · rw [Resolver.addReal_sHash, Function.update_apply] at hR
      split_ifs at hR with hk
      · subst hk
        rcases List.mem_append.mp hR with hR | hR
        · exact h.live _ R hR
        · exact absurd (List.mem_singleton.mp hR) he
      · exact h.live k R hR
  · -- `listed`
    intro R x hx
    rw [Resolver.addReal_realReqs, Function.update_apply] at hx
    rw [Resolver.addReal_sHash, Function.update_apply]
    split_ifs at hx with he
    · rw [Option.some.injEq] at hx
      rw [← hx, if_pos rfl, he]
      exact List.mem_append_right _ (List.mem_singleton_self _)
    · split_ifs with hk
      · rw [← hk]
        exact List.mem_append_left _ (h.listed R x hx)
      · exact h.listed R x hx
  · -- `fresh`
    intro R hR
    have hlt : d.nextReal < R := hR
    rw [Resolver.addReal_realReqs, Function.update_of_ne (Nat.ne_of_gt hlt)]
    exact h.fresh R (Nat.le_of_lt hlt)
  · -- `hash`
    have hpush := hold.push (x := d.nextReal) ?_
    · rw [hself] at hpush
      exact hpush
    · intro k R hR
      have hne : R ≠ d.nextReal := fun he => hnotin k (he ▸ hR)
      obtain ⟨x, hx⟩ := h.live k R hR
      rw [hself, hkey R hne, hostOf_eq hx]
      exact hnone R x hx
  · exact h.cache
  · -- `disjoint`
    intro R x hx
    rw [Resolver.addReal_realReqs, Function.update_apply] at hx
    split_ifs at hx with he
    · rw [Option.some.injEq] at hx
      rw [← hx]
      exact (h.cacheFind_eq_none_iff real.host).mp hcache
    · exact h.disjoint R x hx

/-- A query is removed. -/
theorem Tables.removeReal (h : Tables d) {R : RealId} {real : RealReq}
    (hR : d.realReqs R = some real) : Tables (d.removeReal R (dnsHashStr real.host)) := by
  have hkeep : ∀ R' x, R' ≠ R → d.realReqs R' = some x →
      (d.removeReal R (dnsHashStr real.host)).realReqs R' = some x := by
    intro R' x hne hx
    rw [Resolver.removeReal_realReqs, Function.update_of_ne hne]
    exact hx
  have hof : ∀ R' x, (d.removeReal R (dnsHashStr real.host)).realReqs R' = some x →
      R' ≠ R ∧ d.realReqs R' = some x := by
    intro R' x hx
    rw [Resolver.removeReal_realReqs, Function.update_apply] at hx
    split_ifs at hx with he
    exact ⟨he, hx⟩
  -- what is left in the buckets is different from the query
  have hin : ∀ k R', R' ∈ (d.removeReal R (dnsHashStr real.host)).sHash k →
      R' ≠ R ∧ R' ∈ d.sHash k := by
    intro k R' hR'
    rw [Resolver.removeReal_sHash, Function.update_apply] at hR'
    split_ifs at hR' with hk
    · subst hk
      have hnodup : (d.sHash (dnsHashStr real.host)).Nodup := (h.hash.nodup _).of_map
      refine ⟨fun he => ?_, List.mem_of_mem_erase hR'⟩
      exact hnodup.not_mem_erase (he ▸ hR')
    · refine ⟨fun he => hk ?_, hR'⟩
      have hplaced := h.hash.placed k R' hR'
      rw [he, hostOf_eq hR] at hplaced
      exact hplaced.symm
  constructor
  · -- `live`
    intro k R' hR'
    obtain ⟨hne, hmem⟩ := hin k R' hR'
    obtain ⟨x, hx⟩ := h.live k R' hmem
    exact ⟨x, hkeep R' x hne hx⟩
  · -- `listed`
    intro R' x hx
    obtain ⟨hne, hx⟩ := hof R' x hx
    rw [Resolver.removeReal_sHash, Function.update_apply]
    split_ifs with hk
    · rw [← hk]
      exact (List.mem_erase_of_ne hne).mpr (h.listed R' x hx)
    · exact h.listed R' x hx
  · -- `fresh`
    intro R' hR'
    rw [Resolver.removeReal_realReqs, Function.update_apply]
    split_ifs
    · rfl
    · exact h.fresh R' hR'
  · -- `hash`
    refine (h.hash.erase (dnsHashStr real.host) R).congr ?_
    intro k R' hR'
    obtain ⟨hne, -⟩ := hin k R' hR'
    rw [hostOf, Resolver.removeReal_realReqs, Function.update_of_ne hne, hostOf]
  · exact h.cache
  · intro R' x hx
    exact h.disjoint R' x (hof R' x hx).2

/-- A new host in the cache, for which there is no query. -/
theorem Tables.addRecord (h : Tables d) {record : CacheRecord}
    (hcache : dnsCacheFind d record.host = none)
    (hreal : ∀ R real, d.realReqs R = some real → real.host ≠ record.host) :
    Tables (d.addRecord record (dnsHashCacheStr record.host)) where
  live := h.live
  listed := h.listed
  fresh := h.fresh
  hash := h.hash
  cache := h.cache.push ((h.cacheFind_eq_none_iff record.host).mp hcache)
  disjoint := by
    intro R real hR k x hx
    rw [Resolver.addRecord_sCacheHash, Function.update_apply] at hx
    split_ifs at hx with hk
    · rcases List.mem_append.mp hx with hx | hx
      · exact h.disjoint R real hR _ x hx
      · rw [List.mem_singleton.mp hx]
        exact (hreal R real hR).symm
    · exact h.disjoint R real hR k x hx

theorem tables_init : Tables .init where
  live := fun _ _ hR => absurd hR List.not_mem_nil
  listed := fun _ _ hR => absurd hR.symm (Option.some_ne_none _)
  fresh := fun _ _ => rfl
  hash := Buckets.ok_empty _ _
  cache := Buckets.ok_empty _ _
  disjoint := fun _ _ _ _ _ hrec => absurd hrec List.not_mem_nil

/-! ### What this means -/

/-- There is at most one query and at most one cache record for a host, each in its bucket, never both,
and the lookups find them exactly when they are there. -/
structure OnePerHost (d : Resolver) : Prop where
  pending : ∀ k, ∀ R ∈ d.sHash k, ∃ real, d.realReqs R = some real ∧ dnsHashStr real.host = k
  pending_unique : ∀ j k R R', R ∈ d.sHash j → R' ∈ d.sHash k → hostOf d R = hostOf d R' → R = R'
  pending_once : ∀ k, (d.sHash k).Nodup
  cached : ∀ k, ∀ record ∈ d.sCacheHash k, dnsHashCacheStr record.host = k
  cached_unique : ∀ j k record record', record ∈ d.sCacheHash j → record' ∈ d.sCacheHash k →
    record.host = record'.host → record = record'
  cached_once : ∀ k, (d.sCacheHash k).Nodup
  disjoint : ∀ j k, ∀ R ∈ d.sHash j, ∀ record ∈ d.sCacheHash k, hostOf d R ≠ record.host
  cacheFind_iff : ∀ host, (dnsCacheFind d host).isSome = true ↔
    ∃ k, ∃ record ∈ d.sCacheHash k, record.host = host
  realReqFind_iff : ∀ host, (dnsRealReqFind d host).isSome = true ↔
    ∃ k, ∃ R ∈ d.sHash k, hostOf d R = host
  outstanding : ∀ R R' real real', d.realReqs R = some real → d.realReqs R' = some real' →
    real.host = real'.host → R = R'

theorem Tables.onePerHost (h : Tables d) : OnePerHost d where
  pending := by
    intro k R hR
    obtain ⟨real, hreal⟩ := h.live k R hR
    have hplaced := h.hash.placed k R hR
    rw [hostOf_eq hreal] at hplaced
    exact ⟨real, hreal, hplaced⟩
  pending_unique := fun j k R R' hR hR' hhost => h.hash.unique hR hR' hhost
  pending_once := fun k => (h.hash.nodup k).of_map
  cached := h.cache.placed
  cached_unique := fun j k x y hx hy hhost => h.cache.unique hx hy hhost
  cached_once := fun k => (h.cache.nodup k).of_map
  disjoint := by
    intro j k R hR record hrecord
    obtain ⟨real, hreal⟩ := h.live j R hR
    rw [hostOf_eq hreal]
    exact (h.disjoint R real hreal k record hrecord).symm
  cacheFind_iff := by
    intro host
    rw [Option.isSome_iff_exists]
    constructor
    · rintro ⟨record, hfind⟩
      obtain ⟨⟨k, hmem⟩, hhost⟩ := (h.cacheFind_eq_some_iff host record).mp hfind
      exact ⟨k, record, hmem, hhost⟩
    · rintro ⟨k, record, hmem, hhost⟩
      exact ⟨record, (h.cacheFind_eq_some_iff host record).mpr ⟨⟨k, hmem⟩, hhost⟩⟩
  realReqFind_iff := by
    intro host
    rw [Option.isSome_iff_exists]
    constructor
    · rintro ⟨R, hfind⟩
      obtain ⟨real, hreal, rfl⟩ := (h.realReqFind_eq_some_iff host R).mp hfind
      exact ⟨_, R, h.listed R real hreal, hostOf_eq hreal⟩
    · rintro ⟨k, R, hR, rfl⟩
      obtain ⟨real, hreal⟩ := h.live k R hR
      exact ⟨R, (h.realReqFind_eq_some_iff _ R).mpr ⟨real, hreal, (hostOf_eq hreal).symm⟩⟩
  outstanding := fun R R' real real' hR hR' hhost => h.real_unique hR hR' hhost

end H2ClientProxy.Dns
